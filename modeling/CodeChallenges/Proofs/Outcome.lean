import Mathlib.Data.List.Perm.Basic
/-!
# Steps that can fail

A chain of steps has a result exactly if each step has one.  These equivalences peel a chain apart
from the front, so that no later proof has to look at how steps are put together.
-/

namespace CodeChallenges

variable {ε ε' α β : Type}

theorem bind_eq_ok_iff {x : Except ε α} {f : α → Except ε β} {b : β} :
    (x >>= f) = .ok b ↔ ∃ a, x = .ok a ∧ f a = .ok b := by
  cases x with
  | error e => simp [bind, Except.bind]
  | ok a => simp [bind, Except.bind]

theorem bind_eq_error_iff {x : Except ε α} {f : α → Except ε β} {e : ε} :
    (x >>= f) = .error e ↔ x = .error e ∨ ∃ a, x = .ok a ∧ f a = .error e := by
  cases x with
  | error e' => simp [bind, Except.bind]
  | ok a => simp [bind, Except.bind]

/-- A step that has no result fails. -/
theorem exists_eq_error_iff {x : Except ε α} : (∃ e, x = .error e) ↔ ¬ ∃ a, x = .ok a := by
  cases x with
  | error e => simp
  | ok a => simp

theorem pure_eq_ok_iff {a b : α} : (pure a : Except ε α) = .ok b ↔ a = b :=
  ⟨Except.ok.inj, fun h => h ▸ rfl⟩

theorem map_eq_ok_iff {x : Except ε α} {f : α → β} {b : β} :
    x.map f = .ok b ↔ ∃ a, x = .ok a ∧ f a = b := by
  cases x with
  | error e => simp [Except.map]
  | ok a => simp [Except.map]

/-- What a step results in can be told by evaluation if its results can be compared. -/
theorem eq_ok_of_toOption {x : Except ε α} {a : α} (h : x.toOption = some a) : x = .ok a := by
  cases x with
  | error e => cases h
  | ok b => exact congrArg Except.ok (Option.some.inj h)

theorem eq_ok_of_isSome {x : Except ε α} (h : x.toOption.isSome = true) (a : α) :
    x = .ok (x.toOption.getD a) := by
  cases x with
  | error e => cases h
  | ok b => rfl

theorem mapError_eq_ok_iff {x : Except ε α} {f : ε → ε'} {a : α} :
    x.mapError f = .ok a ↔ x = .ok a := by
  cases x with
  | error e => simp [Except.mapError]
  | ok a => simp [Except.mapError]

theorem mapError_eq_error_iff {x : Except ε α} {f : ε → ε'} {e' : ε'} :
    x.mapError f = .error e' ↔ ∃ e, x = .error e ∧ f e = e' := by
  cases x with
  | error e => simp [Except.mapError]
  | ok a => simp [Except.mapError]

/-- A step for each item has results exactly if every item has its result. -/
theorem mapM_eq_ok_iff {f : α → Except ε β} {items : List α} {results : List β} :
    items.mapM f = .ok results ↔ List.Forall₂ (fun a b => f a = .ok b) items results := by
  induction items generalizing results with
  | nil =>
      rw [List.mapM_nil, pure_eq_ok_iff, List.forall₂_nil_left_iff]
      exact eq_comm
  | cons a items ih =>
      rw [List.mapM_cons, bind_eq_ok_iff, List.forall₂_cons_left_iff]
      constructor
      · rintro ⟨b, hb, h⟩
        obtain ⟨bs, hbs, h⟩ := bind_eq_ok_iff.mp h
        exact ⟨b, bs, hb, ih.mp hbs, (pure_eq_ok_iff.mp h).symm⟩
      · rintro ⟨b, bs, hb, hbs, rfl⟩
        exact ⟨b, hb, bind_eq_ok_iff.mpr ⟨bs, ih.mpr hbs, rfl⟩⟩

/-- Of lists that are related item by item, each item of the first has one in the second. -/
theorem exists_mem_of_forall₂ {R : α → β → Prop} {items : List α} {results : List β} {a : α}
    (h : List.Forall₂ R items results) (ha : a ∈ items) : ∃ b ∈ results, R a b := by
  induction h with
  | nil => cases ha
  | cons hab _ ih =>
      rcases List.mem_cons.mp ha with rfl | ha
      · exact ⟨_, List.mem_cons_self, hab⟩
      · obtain ⟨b, hb, hR⟩ := ih ha
        exact ⟨b, List.mem_cons_of_mem _ hb, hR⟩

/-- The results of such steps go together with the items of the list. -/
theorem forall₂_mem_of_mapM {f : α → Except ε β} {items : List α} {results : List β}
    (h : items.mapM f = .ok results) :
    List.Forall₂ (fun a b => a ∈ items ∧ f a = .ok b) items results :=
  (List.forall₂_and_left _ _).mpr ⟨fun _ ha => ha, mapM_eq_ok_iff.mp h⟩

/-- Each result of such steps belongs to an item. -/
theorem exists_of_mem_mapM {f : α → Except ε β} {items : List α} {results : List β} {b : β}
    (h : items.mapM f = .ok results) (hb : b ∈ results) : ∃ a ∈ items, f a = .ok b :=
  exists_mem_of_forall₂ (mapM_eq_ok_iff.mp h).flip hb

/-- Each item has its result among the results of such steps. -/
theorem exists_mem_of_mapM {f : α → Except ε β} {items : List α} {results : List β} {a : α}
    (h : items.mapM f = .ok results) (ha : a ∈ items) : ∃ b ∈ results, f a = .ok b :=
  exists_mem_of_forall₂ (mapM_eq_ok_iff.mp h) ha

/-- Steps that agree on all items have the same results. -/
theorem mapM_congr {f g : α → Except ε β} {items : List α} (h : ∀ a ∈ items, f a = g a) :
    items.mapM f = items.mapM g := by
  induction items with
  | nil => rfl
  | cons a items ih =>
      rw [List.mapM_cons, List.mapM_cons, h a List.mem_cons_self,
        ih fun a' ha' => h a' (List.mem_cons_of_mem a ha')]

/-- Steps for the items of several lists are steps for all of them in a row. -/
theorem mapM_flatMap {γ : Type} (f : β → Except ε γ) (g : α → List β) (items : List α) :
    (items.flatMap g).mapM f = (items.mapM fun a => (g a).mapM f).map List.flatten := by
  induction items with
  | nil => rfl
  | cons a items ih =>
      rw [List.flatMap_cons, List.mapM_append, ih, List.mapM_cons]
      cases (g a).mapM f with
      | error e => rfl
      | ok here => cases items.mapM fun a => (g a).mapM f <;> rfl

/-- What relates any two items in their order relates their results, if the step carries it over. -/
theorem pairwise_of_mapM {f : α → Except ε β} {P : α → α → Prop} {Q : β → β → Prop}
    {items : List α} {results : List β} (h : items.mapM f = .ok results) (hp : items.Pairwise P)
    (hstep : ∀ {a a' b b'}, f a = .ok b → f a' = .ok b' → P a a' → Q b b') :
    results.Pairwise Q := by
  induction items generalizing results with
  | nil =>
      rw [List.mapM_nil, pure_eq_ok_iff] at h
      exact h ▸ List.Pairwise.nil
  | cons a items ih =>
      rw [List.mapM_cons] at h
      obtain ⟨b, hb, h⟩ := bind_eq_ok_iff.mp h
      obtain ⟨bs, hbs, h⟩ := bind_eq_ok_iff.mp h
      rw [← pure_eq_ok_iff.mp h]
      obtain ⟨hhead, htail⟩ := List.pairwise_cons.mp hp
      refine List.pairwise_cons.mpr ⟨fun b' hb' => ?_, ih hbs htail⟩
      obtain ⟨a', ha', hf⟩ := exists_of_mem_mapM hbs hb'
      exact hstep hb hf (hhead a' ha')

/-- Of steps that all have results, fewer have fewer results, in the same order. -/
theorem exists_sublist_of_mapM {f : α → Except ε β} {items more : List α} {results : List β}
    (hsub : items.Sublist more) (h : more.mapM f = .ok results) :
    ∃ fewer, items.mapM f = .ok fewer ∧ fewer.Sublist results := by
  induction hsub generalizing results with
  | slnil => exact ⟨[], rfl, List.nil_sublist results⟩
  | cons a _ ih =>
      rw [List.mapM_cons] at h
      obtain ⟨b, -, h⟩ := bind_eq_ok_iff.mp h
      obtain ⟨bs, hbs, h⟩ := bind_eq_ok_iff.mp h
      obtain ⟨fewer, hfewer, hle⟩ := ih hbs
      rw [← pure_eq_ok_iff.mp h]
      exact ⟨fewer, hfewer, hle.cons b⟩
  | cons_cons a _ ih =>
      rw [List.mapM_cons] at h
      obtain ⟨b, hb, h⟩ := bind_eq_ok_iff.mp h
      obtain ⟨bs, hbs, h⟩ := bind_eq_ok_iff.mp h
      obtain ⟨fewer, hfewer, hle⟩ := ih hbs
      rw [← pure_eq_ok_iff.mp h]
      refine ⟨b :: fewer, ?_, hle.cons_cons b⟩
      rw [List.mapM_cons, hb, hfewer]
      rfl

/-- Leaving out items whose results would be left out does not change the results that are kept. -/
theorem exists_filter_of_mapM {f : α → Except ε β} {p : α → Bool} {q : β → Bool} {items : List α}
    {results : List β} (h : items.mapM f = .ok results)
    (hpq : ∀ a ∈ items, ∀ b, f a = .ok b → q b = true → p a = true) :
    ∃ fewer, (items.filter p).mapM f = .ok fewer ∧ fewer.filter q = results.filter q := by
  induction items generalizing results with
  | nil => exact ⟨results, h, rfl⟩
  | cons a items ih =>
      rw [List.mapM_cons] at h
      obtain ⟨b, hb, h⟩ := bind_eq_ok_iff.mp h
      obtain ⟨bs, hbs, h⟩ := bind_eq_ok_iff.mp h
      obtain ⟨fewer, hfewer, heq⟩ := ih hbs fun a' ha' => hpq a' (List.mem_cons_of_mem a ha')
      rw [← pure_eq_ok_iff.mp h, List.filter_cons, List.filter_cons]
      by_cases hp : p a = true
      · refine ⟨b :: fewer, ?_, by rw [List.filter_cons, heq]⟩
        rw [if_pos hp, List.mapM_cons, hb, hfewer]
        rfl
      · have hq : ¬ q b = true := fun hq => hp (hpq a List.mem_cons_self b hb hq)
        exact ⟨fewer, by rw [if_neg hp, hfewer], by rw [if_neg hq, heq]⟩

/-! ## Steps that all succeed -/

theorem exists_bind_eq_ok {x : Except ε α} {f : α → Except ε β} (hx : ∃ a, x = .ok a)
    (hf : ∀ a, x = .ok a → ∃ b, f a = .ok b) : ∃ b, (x >>= f) = .ok b := by
  obtain ⟨a, ha⟩ := hx
  obtain ⟨b, hb⟩ := hf a ha
  exact ⟨b, bind_eq_ok_iff.mpr ⟨a, ha, hb⟩⟩

theorem exists_map_eq_ok {x : Except ε α} {f : α → β} (hx : ∃ a, x = .ok a) :
    ∃ b, x.map f = .ok b := by
  obtain ⟨a, ha⟩ := hx
  exact ⟨f a, map_eq_ok_iff.mpr ⟨a, ha, rfl⟩⟩

theorem exists_mapError_eq_ok {x : Except ε α} {f : ε → ε'} (hx : ∃ a, x = .ok a) :
    ∃ a, x.mapError f = .ok a := by
  obtain ⟨a, ha⟩ := hx
  exact ⟨a, mapError_eq_ok_iff.mpr ha⟩

theorem exists_mapM_eq_ok {f : α → Except ε β} {items : List α}
    (h : ∀ a ∈ items, ∃ b, f a = .ok b) : ∃ results, items.mapM f = .ok results := by
  induction items with
  | nil => exact ⟨[], rfl⟩
  | cons a items ih =>
      obtain ⟨b, hb⟩ := h a List.mem_cons_self
      obtain ⟨bs, hbs⟩ := ih fun a' ha' => h a' (List.mem_cons_of_mem a ha')
      exact ⟨b :: bs, by rw [List.mapM_cons, hb, hbs]; rfl⟩

theorem exists_allM_eq_ok {holds : α → Except ε Bool} {items : List α}
    (h : ∀ a ∈ items, ∃ b, holds a = .ok b) : ∃ b, items.allM holds = .ok b := by
  induction items with
  | nil => exact ⟨true, rfl⟩
  | cons a items ih =>
      obtain ⟨b, hb⟩ := h a List.mem_cons_self
      rw [List.allM, hb]
      cases b with
      | false => exact ⟨false, rfl⟩
      | true => exact ih fun a' ha' => h a' (List.mem_cons_of_mem a ha')

theorem exists_filterM_eq_ok {keep : α → Except ε Bool} {items : List α}
    (h : ∀ a ∈ items, ∃ b, keep a = .ok b) : ∃ kept, items.filterM keep = .ok kept := by
  have haux : ∀ done, ∃ kept, items.filterAuxM keep done = .ok kept := by
    induction items with
    | nil => exact fun done => ⟨done, rfl⟩
    | cons a items ih =>
        intro done
        obtain ⟨b, hb⟩ := h a List.mem_cons_self
        rw [List.filterAuxM, hb]
        exact ih (fun a' ha' => h a' (List.mem_cons_of_mem a ha')) _
  obtain ⟨kept, hkept⟩ := haux []
  exact ⟨kept.reverse, by rw [List.filterM, hkept]; rfl⟩

/-! ## Steps on a state -/

/-- A step on a state after another one goes on from what that one has left, or fails as it fails. -/
theorem run_bind_state {σ : Type} (x : ExceptT ε (StateM σ) α) (f : α → ExceptT ε (StateM σ) β)
    (state : σ) :
    (x >>= f).run state =
      match x.run state with
      | (.ok a, state') => (f a).run state'
      | (.error e, state') => (.error e, state') := by
  show (match x.run state with | (result, state') => ExceptT.bindCont f result state') = _
  rcases x.run state with ⟨_ | _, _⟩ <;> rfl

/-! ## Faults -/

/-- The fault of a step that fails. -/
def faultOf : Except ε α → Option ε
  | .error e => some e
  | .ok _ => none

theorem faultOf_eq_some_iff {x : Except ε α} {e : ε} : faultOf x = some e ↔ x = .error e := by
  cases x with
  | error e' => simp [faultOf]
  | ok a => simp [faultOf]

theorem faultOf_eq_none_iff {x : Except ε α} : faultOf x = none ↔ ∃ a, x = .ok a := by
  cases x with
  | error e => simp [faultOf]
  | ok a => simp [faultOf]

/-- A chain of two steps has the fault of the first one, or else that of the second. -/
theorem faultOf_bind {x : Except ε α} {f : α → Except ε β} {later : Option ε}
    (h : ∀ a, x = .ok a → faultOf (f a) = later) : faultOf (x >>= f) = (faultOf x).or later := by
  cases x with
  | error e => rfl
  | ok a => exact h a rfl

/-- A chain whose second step has no fault has that of the first one. -/
theorem faultOf_bind_of_none {x : Except ε α} {f : α → Except ε β}
    (h : ∀ a, faultOf (f a) = none) : faultOf (x >>= f) = faultOf x := by
  rw [faultOf_bind fun a _ => h a, Option.or_none]

theorem faultOf_map (x : Except ε α) (f : α → β) : faultOf (x.map f) = faultOf x := by
  cases x <;> rfl

theorem faultOf_mapError (x : Except ε α) (f : ε → ε') :
    faultOf (x.mapError f) = (faultOf x).map f := by
  cases x <;> rfl

/-- Steps for a list of items have the fault of the first item that has one. -/
theorem faultOf_mapM (f : α → Except ε β) (items : List α) :
    faultOf (items.mapM f) = items.findSome? fun a => faultOf (f a) := by
  induction items with
  | nil => rfl
  | cons a items ih =>
      rw [List.mapM_cons, List.findSome?_cons]
      cases ha : f a with
      | error e => rfl
      | ok b =>
          show faultOf (items.mapM f >>= fun bs => pure (b :: bs)) = _
          rw [faultOf_bind_of_none fun bs => rfl, ih]
          rfl

theorem mem_of_mem_filterAuxM {keep : α → Except ε Bool} {items done kept : List α}
    (h : items.filterAuxM keep done = .ok kept) {a : α} (ha : a ∈ kept) : a ∈ items ∨ a ∈ done := by
  induction items generalizing done with
  | nil =>
      rw [List.filterAuxM, pure_eq_ok_iff] at h
      exact .inr (h ▸ ha)
  | cons b items ih =>
      rw [List.filterAuxM] at h
      obtain ⟨keeps, -, h⟩ := bind_eq_ok_iff.mp h
      rcases ih h with hmem | hmem
      · exact .inl (List.mem_cons_of_mem b hmem)
      · cases keeps with
        | false => exact .inr hmem
        | true =>
            rcases List.mem_cons.mp hmem with rfl | hmem
            · exact .inl List.mem_cons_self
            · exact .inr hmem

/-- A filter with a check that can fail keeps some of the items. -/
theorem mem_of_mem_filterM {keep : α → Except ε Bool} {items kept : List α}
    (h : items.filterM keep = .ok kept) {a : α} (ha : a ∈ kept) : a ∈ items := by
  obtain ⟨rest, hrest, h⟩ := bind_eq_ok_iff.mp h
  rw [← pure_eq_ok_iff.mp h] at ha
  rcases mem_of_mem_filterAuxM hrest (List.mem_reverse.mp ha) with hmem | hmem
  · exact hmem
  · cases hmem

/-- A filter with a check that always holds keeps all items. -/
theorem filterM_true (items : List α) :
    items.filterM (fun _ => (.ok true : Except ε Bool)) = .ok items := by
  have haux : ∀ done, items.filterAuxM (fun _ => (.ok true : Except ε Bool)) done =
      .ok (items.reverse ++ done) := by
    induction items with
    | nil => exact fun done => rfl
    | cons a items ih =>
        intro done
        rw [List.filterAuxM, List.reverse_cons, List.append_assoc]
        exact ih (a :: done)
  rw [List.filterM, haux, List.append_nil]
  show Except.ok items.reverse.reverse = _
  rw [List.reverse_reverse]

end CodeChallenges
