import CodeChallenges.Json.Reader
import CodeChallenges.Proofs.Text.Decimal
import CodeChallenges.Proofs.Text.Utf8
import Mathlib.Tactic.IntervalCases
import Mathlib.Tactic.SplitIfs
/-!
# Reading back what is written

A value that is written as JSON text is read back from it, whatever stands in its strings:
`ofChars?_render`.  The reader takes the text of a value where a value is due and is then behind that
value, with the same arrays and objects around it (`isRead`, by induction on the value).  Two places
need care.  A string is read character by character, each from its own escape
(`readFrom_escapeChar`).  A word, such as a number, ends only where something else begins, so what
follows a value has to be a delimiter or the end (`Parted`).

What is written holds no control character (`printed_render`), so a text with a line feed behind it
is one line.
-/

namespace CodeChallenges.Json

variable {state next : State} {rest : List Char}

/-- One character is taken, and the tokens that it ends. -/
theorem readFrom_cons {mode mode' : Mode} {c : Char} {tokens : List Token}
    (hscan : scan mode c = some (mode', tokens))
    (hstep : tokens.foldlM State.step state = some next) :
    readFrom mode state (c :: rest) = readFrom mode' next rest := by
  rw [readFrom, hscan]
  show (tokens.foldlM State.step state).bind _ = _
  rw [hstep]
  rfl

/-- One character within a token is taken. -/
theorem readFrom_within {mode mode' : Mode} {c : Char} (h : scan mode c = some (mode', [])) :
    readFrom mode state (c :: rest) = readFrom mode' state rest :=
  readFrom_cons h rfl

/-- One character is taken that ends a token. -/
theorem readFrom_token {mode mode' : Mode} {c : Char} {token : Token}
    (hscan : scan mode c = some (mode', [token])) (hstep : state.step token = some next) :
    readFrom mode state (c :: rest) = readFrom mode' next rest := by
  refine readFrom_cons hscan ?_
  rw [List.foldlM_cons, hstep]
  rfl

/-! ## Strings -/

theorem hexValue?_digitChar {d : Nat} (h : d < 16) : hexValue? (Nat.digitChar d) = some d := by
  interval_cases d <;> rfl

theorem scan_code {done : List Char} {high : Option Nat} {need number d : Nat} (hd : d < 16)
    (hneed : 1 < need) :
    scan (.code done high need number) (Nat.digitChar d)
      = some (.code done high (need - 1) (number * 16 + d), []) := by
  rw [scan, hexValue?_digitChar hd]
  show (if need ≤ 1 then _ else _) = _
  rw [if_neg (Nat.not_le.mpr hneed)]
  rfl

/-- The number of a character stands for it, since no character is a surrogate. -/
theorem addNumber_toNat (done : List Char) (c : Char) :
    addNumber done none c.toNat = some (.string (c :: done) none) := by
  have hvalid : c.toNat < 0xd800 ∨ 0xdfff < c.toNat ∧ c.toNat < 0x110000 := c.valid
  have hhigh : isHighSurrogate c.toNat = false := by
    rw [isHighSurrogate, Bool.and_eq_false_iff, decide_eq_false_iff_not, decide_eq_false_iff_not]
    omega
  have hlow : isLowSurrogate c.toNat = false := by
    rw [isLowSurrogate, Bool.and_eq_false_iff, decide_eq_false_iff_not, decide_eq_false_iff_not]
    omega
  simp only [addNumber, hhigh, hlow, Bool.false_eq_true, if_false, Char.ofNat_toNat]

/-- Four hexadecimal digits are read as the character that they number. -/
theorem readFrom_hexDigits {c : Char} (h : c.toNat < 0x10000) (done : List Char) :
    readFrom (.code done none 4 0) state (Text.hexDigits 4 c.toNat ++ rest)
      = readFrom (.string (c :: done) none) state rest := by
  have hmod (n : Nat) : n % 16 < 16 := Nat.mod_lt n (by decide)
  show readFrom _ state (Nat.digitChar (c.toNat / 16 / 16 / 16 % 16) ::
    Nat.digitChar (c.toNat / 16 / 16 % 16) :: Nat.digitChar (c.toNat / 16 % 16) ::
    Nat.digitChar (c.toNat % 16) :: rest) = _
  rw [readFrom_within (scan_code (hmod _) (by decide)),
    readFrom_within (scan_code (hmod _) (by decide)),
    readFrom_within (scan_code (hmod _) (by decide))]
  refine readFrom_within ?_
  have hsum : (((0 * 16 + c.toNat / 16 / 16 / 16 % 16) * 16 + c.toNat / 16 / 16 % 16) * 16
      + c.toNat / 16 % 16) * 16 + c.toNat % 16 = c.toNat := by omega
  rw [scan, hexValue?_digitChar (hmod _)]
  show (addNumber done none _).bind _ = _
  rw [hsum, addNumber_toNat]
  rfl

/-- **One character of a string** is read from what is written for it. -/
theorem readFrom_escapeChar (c : Char) (done : List Char) :
    readFrom (.string done none) state (escapeChar c ++ rest)
      = readFrom (.string (c :: done) none) state rest := by
  rw [escapeChar]
  split_ifs with hquote hback hline hreturn htab hbackspace hfeed hcontrol
  · rw [beq_iff_eq.mp hquote]; rfl
  · rw [beq_iff_eq.mp hback]; rfl
  · rw [beq_iff_eq.mp hline]; rfl
  · rw [beq_iff_eq.mp hreturn]; rfl
  · rw [beq_iff_eq.mp htab]; rfl
  · rw [← Char.ofNat_toNat c, beq_iff_eq.mp hbackspace]; rfl
  · rw [← Char.ofNat_toNat c, beq_iff_eq.mp hfeed]; rfl
  · have hstart : readFrom (.string done none) state
        ('\\' :: 'u' :: (Text.hexDigits 4 c.toNat ++ rest))
          = readFrom (.code done none 4 0) state (Text.hexDigits 4 c.toNat ++ rest) := rfl
    exact hstart.trans (readFrom_hexDigits (by omega) done)
  · refine readFrom_within ?_
    rw [scan, if_neg hquote, if_neg hback, if_neg hcontrol]

theorem readFrom_escapes (cs done : List Char) :
    readFrom (.string done none) state (cs.flatMap escapeChar ++ rest)
      = readFrom (.string (cs.reverse ++ done) none) state rest := by
  induction cs generalizing done with
  | nil => rfl
  | cons c cs ih =>
      rw [List.flatMap_cons, List.append_assoc, readFrom_escapeChar, ih, List.reverse_cons,
        List.append_assoc]
      rfl

/-- **A string** is one token, whatever it holds. -/
theorem readFrom_renderString {s : String} (h : state.step (.text s) = some next) :
    readFrom .between state (renderString s ++ rest) = readFrom .between next rest := by
  rw [renderString, List.append_assoc, List.cons_append, List.cons_append,
    @readFrom_within state _ .between (.string [] none) '"' rfl, readFrom_escapes]
  refine readFrom_token ?_ h
  rw [List.append_nil]
  show some (Mode.between, [Token.text (String.ofList s.toList.reverse.reverse)]) = _
  rw [List.reverse_reverse, String.ofList_toList]

/-! ## Words -/

/-- What follows a word: nothing, or a delimiter. -/
def Parted : List Char → Prop
  | [] => True
  | c :: _ => isDelimiter c = true

theorem start_of_not_isDelimiter {c : Char} (h : isDelimiter c = false) :
    start c = (.word [c], []) := by
  obtain ⟨hb, hm⟩ := Bool.or_eq_false_iff.mp h
  obtain ⟨hblank, hquote⟩ := Bool.or_eq_false_iff.mp hb
  have hmark : mark? c = none := Option.not_isSome_iff_eq_none.mp (ne_true_of_eq_false hm)
  rw [start, hblank, hquote, hmark]
  rfl

theorem readFrom_wordChars {w : List Char} (h : w.any isDelimiter = false)
    (done : List Char) :
    readFrom (.word done) state (w ++ rest) = readFrom (.word (w.reverse ++ done)) state rest := by
  induction w generalizing done with
  | nil => rfl
  | cons c w ih =>
      obtain ⟨hc, hw⟩ := Bool.or_eq_false_iff.mp h
      have hscan : scan (.word done) c = some (.word (c :: done), []) := by
        rw [scan, hc]
        rfl
      rw [List.cons_append, readFrom_within hscan, ih hw, List.reverse_cons, List.append_assoc]
      rfl

/-- A word ends where a delimiter follows, or the end of the text. -/
theorem readFrom_endWord {done : List Char} {v : Json} (hword : word? done.reverse = some v)
    (hstep : state.step (.word v) = some next) (hrest : Parted rest) :
    readFrom (.word done) state rest = readFrom .between next rest := by
  cases rest with
  | nil => simp [readFrom, finish, hword, hstep]
  | cons c cs =>
      have hdelimiter : isDelimiter c = true := hrest
      simp [readFrom, scan, hdelimiter, hword, hstep]

/-- **A word** is one token. -/
theorem readFrom_word {w : List Char} {v : Json} (hne : w ≠ [])
    (hchars : w.any isDelimiter = false) (hword : word? w = some v)
    (hstep : state.step (.word v) = some next) (hrest : Parted rest) :
    readFrom .between state (w ++ rest) = readFrom .between next rest := by
  obtain ⟨c, w, rfl⟩ := List.exists_cons_of_ne_nil hne
  obtain ⟨hc, hw⟩ := Bool.or_eq_false_iff.mp hchars
  have hscan : scan .between c = some (.word [c], []) :=
    congrArg some (start_of_not_isDelimiter hc)
  rw [List.cons_append, readFrom_within hscan, readFrom_wordChars hw]
  refine readFrom_endWord ?_ hstep hrest
  rw [List.reverse_append, List.reverse_reverse]
  exact hword

/-! ### Numbers -/

theorem isDelimiter_of_isDigit {c : Char} (h : c.isDigit = true) : isDelimiter c = false := by
  obtain ⟨hlow, hhigh⟩ := Char.isDigit_iff_toNat.mp h
  have hlow' : 48 ≤ c.toNat := hlow
  have hhigh' : c.toNat ≤ 57 := hhigh
  rw [← Char.ofNat_toNat c]
  generalize c.toNat = n at hlow' hhigh'
  interval_cases n <;> rfl

theorem natural?_toDigits (n : Nat) : natural? (Nat.toDigits 10 n) = some n := by
  have hdigits : (Nat.toDigits 10 n).all Char.isDigit = true :=
    List.all_eq_true.mpr fun c hc => Text.isDigit_of_mem_toDigits hc
  have hne : (Nat.toDigits 10 n != []) = true := bne_iff_ne.mpr Nat.toDigits_ne_nil
  have hfirst : (Nat.toDigits 10 n == ['0'] || (Nat.toDigits 10 n).head? != some '0') = true := by
    cases n with
    | zero => rfl
    | succ n =>
        rw [Bool.or_eq_true]
        exact .inr (bne_iff_ne.mpr (Text.head?_toDigits_ne (Nat.succ_pos n)))
  rw [natural?, hne, hdigits, hfirst, Nat.ofDigitChars_ten_toDigits]
  rfl

theorem integer?_repr (n : Int) : integer? n.repr.toList = some n := by
  cases n with
  | ofNat n =>
      have hunsigned (cs : List Char) (heq : Nat.toDigits 10 n = '-' :: cs) : False := by
        have hmem : '-' ∈ Nat.toDigits 10 n := heq ▸ List.mem_cons_self
        exact absurd (Text.isDigit_of_mem_toDigits hmem) (by decide)
      rw [Text.toList_repr_ofNat, integer?.eq_2 _ hunsigned, natural?_toDigits]
      rfl
  | negSucc n =>
      rw [Text.toList_repr_negSucc, integer?, natural?_toDigits]
      rfl

theorem word?_repr (n : Int) : word? n.repr.toList = some (.int n) := by
  -- The three words that are no numbers hold a letter.
  have hother {w : List Char} {c : Char} (hc : c ∈ w) (hsign : c ≠ '-') (hdigit : ¬ c.isDigit) :
      (n.repr.toList == w) = false := by
    rw [beq_eq_false_iff_ne]
    rintro rfl
    exact (Text.mem_repr hc).elim hsign hdigit
  rw [word?, hother (c := 'n') (by decide) (by decide) (by decide),
    hother (c := 't') (by decide) (by decide) (by decide),
    hother (c := 'f') (by decide) (by decide) (by decide), integer?_repr]
  rfl

theorem any_isDelimiter_repr (n : Int) : n.repr.toList.any isDelimiter = false := by
  rw [List.any_eq_false]
  intro c hc
  rw [Bool.not_eq_true]
  rcases Text.mem_repr hc with rfl | hdigit
  · rfl
  · exact isDelimiter_of_isDigit hdigit

theorem repr_ne_nil (n : Int) : n.repr.toList ≠ [] := by
  intro h
  have hread := integer?_repr n
  rw [h] at hread
  cases hread

/-! ## Values -/

theorem renderItems_cons_cons (item item' : Json) (items : List Json) :
    renderItems (item :: item' :: items)
      = item.render ++ ',' :: ' ' :: renderItems (item' :: items) := by
  rw [renderItems.eq_3 _ _ (List.cons_ne_nil _ _), List.append_assoc]
  rfl

theorem renderFields_singleton (key : String) (v : Json) :
    renderFields [(key, v)] = renderString key ++ ':' :: ' ' :: v.render := by
  rw [renderFields, List.append_assoc]
  rfl

theorem renderFields_cons_cons (key : String) (v : Json) (field : String × Json)
    (fields : List (String × Json)) :
    renderFields ((key, v) :: field :: fields)
      = renderFields [(key, v)] ++ ',' :: ' ' :: renderFields (field :: fields) := by
  rw [renderFields.eq_3 _ _ _ (List.cons_ne_nil _ _), renderFields, List.append_assoc _ [',', ' ']]
  rfl

section

variable {v : Json} {items : List Json} {fields : List (String × Json)} {key : String}
  {around : List Frame}

theorem parted_cons {c : Char} (h : isDelimiter c = true) : Parted (c :: rest) := h

theorem readFrom_comma_items :
    readFrom .between (.afterValue v (.items items :: around)) (',' :: ' ' :: rest)
      = readFrom .between (.beforeValue (.items (v :: items) :: around)) rest := rfl

theorem readFrom_close_items :
    readFrom .between (.afterValue v (.items items :: around)) (']' :: rest)
      = readFrom .between (.afterValue (.arr (items.reverse ++ [v])) around) rest := by
  rw [← List.reverse_cons]
  rfl

theorem readFrom_colon :
    readFrom .between (.beforeColon fields key around) (':' :: ' ' :: rest)
      = readFrom .between (.beforeValue (.fields fields key :: around)) rest := rfl

theorem readFrom_comma_fields :
    readFrom .between (.afterValue v (.fields fields key :: around)) (',' :: ' ' :: rest)
      = readFrom .between (.beforeKey ((key, v) :: fields) around) rest := rfl

theorem readFrom_close_fields :
    readFrom .between (.afterValue v (.fields fields key :: around)) (Char.ofNat 0x7d :: rest)
      = readFrom .between (.afterValue (.obj (fields.reverse ++ [(key, v)])) around) rest := by
  rw [← List.reverse_cons]
  rfl

end

/-- Induction on a value: what passes from all items of an array and from the values of all fields of
an object to the whole holds of every value. -/
@[elab_as_elim]
theorem induct {motive : Json → Prop} (null : motive .null) (bool : ∀ b, motive (.bool b))
    (int : ∀ n, motive (.int n)) (str : ∀ s, motive (.str s))
    (arr : ∀ items, (∀ item ∈ items, motive item) → motive (.arr items))
    (obj : ∀ fields, (∀ field ∈ fields, motive field.2) → motive (.obj fields)) :
    ∀ v, motive v
  | .null => null
  | .bool b => bool b
  | .int n => int n
  | .str s => str s
  | .arr items => arr items fun item _ => induct null bool int str arr obj item
  | .obj fields => obj fields fun field _ => induct null bool int str arr obj field.2
  termination_by v => sizeOf v
  decreasing_by
    · have hlt := List.sizeOf_lt_of_mem ‹item ∈ items›
      rw [Json.arr.sizeOf_spec]
      omega
    · have hlt := List.sizeOf_lt_of_mem ‹field ∈ fields›
      have hsize : sizeOf field = 1 + sizeOf field.1 + sizeOf field.2 := rfl
      rw [Json.obj.sizeOf_spec]
      omega

/-- A value is read where one is due, if something else begins behind it. -/
def IsRead (v : Json) : Prop :=
  ∀ {around : List Frame} {rest : List Char}, Parted rest →
    readFrom .between (.beforeValue around) (v.render ++ rest)
      = readFrom .between (.afterValue v around) rest

/-- The items of an array are read behind those before them. -/
theorem readFrom_renderItems {items : List Json} (hne : items ≠ [])
    (hread : ∀ item ∈ items, item.IsRead) (done : List Json) (around : List Frame) :
    readFrom .between (.beforeValue (.items done :: around)) (renderItems items ++ ']' :: rest)
      = readFrom .between (.afterValue (.arr (done.reverse ++ items)) around) rest := by
  induction items generalizing done with
  | nil => exact absurd rfl hne
  | cons item items ih =>
      have hitem : item.IsRead := hread item List.mem_cons_self
      cases items with
      | nil => rw [renderItems, hitem (parted_cons rfl), readFrom_close_items]
      | cons item' items =>
          rw [renderItems_cons_cons, List.append_assoc, List.cons_append, List.cons_append,
            hitem (parted_cons rfl), readFrom_comma_items,
            ih (List.cons_ne_nil _ _) (fun other h => hread other (List.mem_cons_of_mem _ h)),
            List.reverse_cons, List.append_assoc, List.singleton_append]

/-- The fields of an object are read behind those before them. -/
theorem readFrom_renderFields {fields : List (String × Json)} (hne : fields ≠ [])
    (hread : ∀ field ∈ fields, field.2.IsRead) (done : List (String × Json))
    (around : List Frame) :
    readFrom .between (.beforeKey done around) (renderFields fields ++ Char.ofNat 0x7d :: rest)
      = readFrom .between (.afterValue (.obj (done.reverse ++ fields)) around) rest := by
  induction fields generalizing done with
  | nil => exact absurd rfl hne
  | cons field fields ih =>
      obtain ⟨key, v⟩ := field
      have hv : v.IsRead := hread (key, v) List.mem_cons_self
      -- The key, the colon and the value, whatever follows them.
      have hfield {rest : List Char} (hrest : Parted rest) :
          readFrom .between (.beforeKey done around) (renderFields [(key, v)] ++ rest)
            = readFrom .between (.afterValue v (.fields done key :: around)) rest := by
        rw [renderFields_singleton, List.append_assoc, readFrom_renderString rfl]
        exact readFrom_colon.trans (hv hrest)
      cases fields with
      | nil => rw [hfield (parted_cons rfl), readFrom_close_fields]
      | cons field' fields =>
          rw [renderFields_cons_cons, List.append_assoc, List.cons_append, List.cons_append,
            hfield (parted_cons rfl), readFrom_comma_fields,
            ih (List.cons_ne_nil _ _) (fun other h => hread other (List.mem_cons_of_mem _ h)),
            List.reverse_cons, List.append_assoc, List.singleton_append]

/-- **Every value** is read where one is due. -/
theorem isRead (v : Json) : v.IsRead := by
  intro around rest hrest
  induction v using induct generalizing around rest with
  | null =>
      rw [render]
      exact readFrom_word (by decide) rfl rfl rfl hrest
  | bool b =>
      cases b <;> rw [render] <;> exact readFrom_word (by decide) rfl rfl rfl hrest
  | int n =>
      rw [render]
      exact readFrom_word (repr_ne_nil n) (any_isDelimiter_repr n) (word?_repr n) rfl hrest
  | str s =>
      rw [render]
      exact readFrom_renderString rfl
  | arr items ih =>
      cases items with
      | nil => rfl
      | cons item items =>
          rw [render, List.append_assoc, List.cons_append]
          exact readFrom_renderItems (List.cons_ne_nil _ _) (fun item h => ih item h) [] around
  | obj fields ih =>
      cases fields with
      | nil => rfl
      | cons field fields =>
          rw [render, List.append_assoc, List.cons_append]
          exact readFrom_renderFields (List.cons_ne_nil _ _) (fun field h => ih field h) [] around

/-- **Reading undoes writing**: what is written for a value is read as that value. -/
theorem ofChars?_render (v : Json) : ofChars? v.render = some v := by
  have hread : readFrom .between (.beforeValue []) (v.render ++ []) = _ := v.isRead trivial
  rw [List.append_nil] at hread
  rw [ofChars?, hread]
  rfl

example : ofChars? " [-1, \"\\ud83d\\ude00\", \"\\u00e9\\/\"]".toList
    = some (.arr [.int (-1), .str "😀", .str "é/"]) := by rfl

theorem ofBytes?_encode_render (v : Json) : ofBytes? (Text.Utf8.encode v.render) = some v := by
  rw [ofBytes?, Text.Utf8.decode_encode]
  exact ofChars?_render v

/-! ## No control characters -/

/-- No character of a text is a control character. -/
def Printed (cs : List Char) : Prop :=
  ∀ c ∈ cs, 0x20 ≤ c.toNat

-- Decided by the characters of the text alone.
instance (cs : List Char) : Decidable (Printed cs) :=
  List.decidableBAll (fun c : Char => 0x20 ≤ c.toNat) cs

theorem Printed.append {cs ds : List Char} (h : Printed cs) (h' : Printed ds) :
    Printed (cs ++ ds) :=
  List.forall_mem_append.mpr ⟨h, h'⟩

theorem printed_singleton {c : Char} (h : 0x20 ≤ c.toNat) : Printed [c] :=
  List.forall_mem_singleton.mpr h

theorem printed_hexDigits (width n : Nat) : Printed (Text.hexDigits width n) := by
  induction width generalizing n with
  | zero => exact List.forall_mem_nil _
  | succ width ih =>
      refine (ih (n / 16)).append (printed_singleton ?_)
      have hdigit : n % 16 < 16 := Nat.mod_lt n (by decide)
      generalize n % 16 = d at hdigit
      interval_cases d <;> decide

theorem printed_escapeChar (c : Char) : Printed (escapeChar c) := by
  rw [escapeChar]
  split_ifs with hquote hback hline hreturn htab hbackspace hfeed hcontrol
  · decide
  · decide
  · decide
  · decide
  · decide
  · decide
  · decide
  · exact @Printed.append ['\\', 'u'] _ (by decide) (printed_hexDigits 4 c.toNat)
  · exact printed_singleton (Nat.le_of_not_lt hcontrol)

theorem printed_renderString (s : String) : Printed (renderString s) := by
  refine Printed.append (fun c hc => ?_) (by decide)
  rcases List.mem_cons.mp hc with rfl | hc
  · decide
  · obtain ⟨d, -, hd⟩ := List.mem_flatMap.mp hc
    exact printed_escapeChar d c hd

theorem printed_renderItems {items : List Json} (h : ∀ item ∈ items, Printed item.render) :
    Printed (renderItems items) := by
  induction items with
  | nil => exact List.forall_mem_nil _
  | cons item items ih =>
      have hitem : Printed item.render := h item List.mem_cons_self
      cases items with
      | nil => exact hitem
      | cons item' items =>
          rw [renderItems_cons_cons]
          exact hitem.append (@Printed.append [',', ' '] _ (by decide)
            (ih fun other hother => h other (List.mem_cons_of_mem _ hother)))

theorem printed_renderFields {fields : List (String × Json)}
    (h : ∀ field ∈ fields, Printed field.2.render) : Printed (renderFields fields) := by
  induction fields with
  | nil => exact List.forall_mem_nil _
  | cons field fields ih =>
      obtain ⟨key, v⟩ := field
      have hfield : Printed (renderFields [(key, v)]) := by
        rw [renderFields_singleton]
        exact (printed_renderString key).append
          (@Printed.append [':', ' '] _ (by decide) (h (key, v) List.mem_cons_self))
      cases fields with
      | nil => exact hfield
      | cons field' fields =>
          rw [renderFields_cons_cons]
          exact hfield.append (@Printed.append [',', ' '] _ (by decide)
            (ih fun other hother => h other (List.mem_cons_of_mem _ hother)))

/-- **What is written holds no control character**, whatever stands in the strings. -/
theorem printed_render (v : Json) : Printed v.render := by
  induction v using induct with
  | null => rw [render]; decide
  | bool b => cases b <;> rw [render] <;> decide
  | int n =>
      rw [render]
      intro c hc
      rcases Text.mem_repr hc with rfl | hdigit
      · decide
      · have hlow : 48 ≤ c.toNat := (Char.isDigit_iff_toNat.mp hdigit).1
        exact Nat.le_trans (by decide) hlow
  | str s => rw [render]; exact printed_renderString s
  | arr items ih =>
      rw [render]
      exact (@Printed.append ['['] _ (by decide) (printed_renderItems ih)).append (by decide)
  | obj fields ih =>
      rw [render]
      exact (@Printed.append [Char.ofNat 0x7b] _ (by decide) (printed_renderFields ih)).append
        (by decide)

/-! ## A text or null -/

theorem ofOption_inj {s t : Option String} : ofOption s = ofOption t ↔ s = t := by
  cases s <;> cases t <;> simp only [ofOption, reduceCtorEq, Json.str.injEq, Option.some.injEq]

end CodeChallenges.Json
