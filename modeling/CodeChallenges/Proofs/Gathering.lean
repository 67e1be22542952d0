import CodeChallenges.Proofs.Outcome
import Mathlib.Data.List.Induction
import Mathlib.Data.List.Nodup
/-!
# Gathering by key

Finds at one place are put together while they come in: a list is kept in which no two items have
one key, and an item of a known key is combined with the one that is there.  What stands at a key in
the end is what the items of this key give if they are combined alone, in their order
(`find_gather`), so that a law of the combination holds of every gathered item
(`of_mem_gather`).

The law that matters here is that the first item of least rank wins (`Leads`).
-/

namespace CodeChallenges

variable {α β κ : Type}

/-! ## The first item of least rank -/

/-- An item of a list leads it if no item before it has a rank as low, and no item after it has a
lower one. -/
def Leads (rank : α → Nat) (items : List α) (a : α) : Prop :=
  ∃ before after, items = before ++ a :: after ∧
    (∀ b ∈ before, rank a < rank b) ∧ ∀ b ∈ after, rank a ≤ rank b

theorem Leads.mem {rank : α → Nat} {items : List α} {a : α} (h : Leads rank items a) :
    a ∈ items := by
  obtain ⟨before, after, rfl, -, -⟩ := h
  exact List.mem_append_right before List.mem_cons_self

/-- The leading item has the least rank. -/
theorem Leads.rank_le {rank : α → Nat} {items : List α} {a b : α} (h : Leads rank items a)
    (hb : b ∈ items) : rank a ≤ rank b := by
  obtain ⟨before, after, rfl, hbefore, hafter⟩ := h
  rcases List.mem_append.mp hb with hb | hb
  · exact Nat.le_of_lt (hbefore b hb)
  · rcases List.mem_cons.mp hb with rfl | hb
    · exact Nat.le_refl _
    · exact hafter b hb

theorem leads_singleton (rank : α → Nat) (a : α) : Leads rank [a] a :=
  ⟨[], [], rfl, List.forall_mem_nil _, List.forall_mem_nil _⟩

/-- A later item takes the lead only if its rank is lower. -/
theorem Leads.append_singleton {rank : α → Nat} {items : List α} {a : α} (h : Leads rank items a)
    (c : α) : Leads rank (items ++ [c]) (if rank c < rank a then c else a) := by
  split
  · rename_i hlt
    refine ⟨items, [], rfl, ?_, List.forall_mem_nil _⟩
    intro b hb
    exact Nat.lt_of_lt_of_le hlt (h.rank_le hb)
  · rename_i hle
    obtain ⟨before, after, rfl, hbefore, hafter⟩ := h
    refine ⟨before, after ++ [c], by rw [List.append_assoc, List.cons_append], hbefore, ?_⟩
    intro b hb
    rcases List.mem_append.mp hb with hb | hb
    · exact hafter b hb
    · rw [List.mem_singleton.mp hb]
      exact Nat.le_of_not_lt hle

/-- No two items lead one list. -/
theorem Leads.unique {rank : α → Nat} {items : List α} {a b : α} (ha : Leads rank items a)
    (hb : Leads rank items b) : a = b := by
  have hle := ha.rank_le hb.mem
  have hge := hb.rank_le ha.mem
  obtain ⟨before, after, rfl, hbefore, -⟩ := ha
  obtain ⟨before', after', heq, hbefore', -⟩ := hb
  rcases List.append_eq_append_iff.mp heq with ⟨mid, hmid, htail⟩ | ⟨mid, hmid, htail⟩
  · cases mid with
    | nil => exact (List.cons.inj htail).1
    | cons m mid =>
        -- Here `a` would come before `b` with a rank as low.
        have ham : a = m := (List.cons.inj htail).1
        have hlt := hbefore' m (hmid ▸ List.mem_append_right before List.mem_cons_self)
        rw [← ham] at hlt
        omega
  · cases mid with
    | nil => exact (List.cons.inj htail).1.symm
    | cons m mid =>
        have hbm : b = m := (List.cons.inj htail).1
        have hlt := hbefore m (hmid ▸ List.mem_append_right before' List.mem_cons_self)
        rw [← hbm] at hlt
        omega

/-- The items of two lists are led by the leader of the first list, unless that of the second has a
lower rank. -/
theorem leads_append_iff {rank : α → Nat} {items more : List α} {a : α} :
    Leads rank (items ++ more) a ↔
      (Leads rank items a ∧ ∀ b ∈ more, rank a ≤ rank b) ∨
        (Leads rank more a ∧ ∀ b ∈ items, rank a < rank b) := by
  constructor
  · rintro ⟨before, after, heq, hbefore, hafter⟩
    rcases List.append_eq_append_iff.mp heq with ⟨mid, rfl, hmore⟩ | ⟨mid, hitems, hrest⟩
    · obtain ⟨hitems, hmid⟩ := List.forall_mem_append.mp hbefore
      exact .inr ⟨⟨mid, after, hmore, hmid, hafter⟩, hitems⟩
    · cases mid with
      | nil =>
          rw [List.append_nil] at hitems
          rw [List.nil_append] at hrest
          exact .inr ⟨⟨[], after, hrest.symm, List.forall_mem_nil _, hafter⟩, hitems ▸ hbefore⟩
      | cons m mid =>
          obtain ⟨rfl, rfl⟩ := List.cons.inj hrest
          obtain ⟨hmid, hmore⟩ := List.forall_mem_append.mp hafter
          exact .inl ⟨⟨before, mid, hitems, hbefore, hmid⟩, hmore⟩
  · rintro (⟨⟨before, after, rfl, hbefore, hafter⟩, hmore⟩ |
      ⟨⟨before, after, rfl, hbefore, hafter⟩, hitems⟩)
    · exact ⟨before, after ++ more, by rw [List.append_assoc, List.cons_append], hbefore,
        List.forall_mem_append.mpr ⟨hafter, hmore⟩⟩
    · exact ⟨items ++ before, after, by rw [List.append_assoc],
        List.forall_mem_append.mpr ⟨hitems, hbefore⟩, hafter⟩

/-- What leads some items belongs to what leads the sources of these items. -/
theorem Leads.exists_of_forall₂ {R : β → α → Prop} {rank : α → Nat} {rank' : β → Nat}
    {sources : List β} {items : List α} {a : α} (h : Leads rank items a)
    (hall : List.Forall₂ R sources items) (hrank : ∀ {b c}, R b c → rank c = rank' b) :
    ∃ b, Leads rank' sources b ∧ R b a := by
  obtain ⟨before, after, rfl, hbefore, hafter⟩ := h
  have hfirst := List.forall₂_take_append sources before (a :: after) hall
  have hrest := List.forall₂_drop_append sources before (a :: after) hall
  obtain ⟨b, last, hb, hlast, hdrop⟩ := List.forall₂_cons_right_iff.mp hrest
  have hsplit : sources = sources.take before.length ++ b :: last := by
    rw [← hdrop, List.take_append_drop]
  refine ⟨b, ⟨_, last, hsplit, ?_, ?_⟩, hb⟩
  · intro c hc
    obtain ⟨d, hd, hcd⟩ := exists_mem_of_forall₂ hfirst hc
    rw [← hrank hb, ← hrank hcd]
    exact hbefore d hd
  · intro c hc
    obtain ⟨d, hd, hcd⟩ := exists_mem_of_forall₂ hlast hc
    rw [← hrank hb, ← hrank hcd]
    exact hafter d hd

/-! ## Gathering -/

section Gather

variable [DecidableEq κ] {key : α → κ} {combine : α → α → α}

/-- Adds an item to a list in which no two have one key: at a known key it is combined with the one
that is there, and at a new key it goes to the end. -/
def gatherInto (key : α → κ) (combine : α → α → α) : List α → α → List α
  | [], c => [c]
  | a :: rest, c =>
    if key a = key c then combine a c :: rest else a :: gatherInto key combine rest c

/-- Items gathered by key, in their order. -/
def gather (key : α → κ) (combine : α → α → α) (items : List α) : List α :=
  items.foldl (gatherInto key combine) []

/-- Items that are combined one after the other, if there are any. -/
def combined (combine : α → α → α) : List α → Option α
  | [] => none
  | a :: rest => some (rest.foldl combine a)

theorem combined_append_singleton (items : List α) (c : α) :
    combined combine (items ++ [c]) =
      some (((combined combine items).map (combine · c)).getD c) := by
  cases items with
  | nil => rfl
  | cons a rest => simp only [combined, List.cons_append, List.foldl_append, List.foldl_cons,
      List.foldl_nil, Option.map_some, Option.getD_some]

theorem gather_append_singleton (items : List α) (c : α) :
    gather key combine (items ++ [c]) = gatherInto key combine (gather key combine items) c := by
  rw [gather, gather, List.foldl_append, List.foldl_cons, List.foldl_nil]

/-- Adding an item concerns its own key only. -/
theorem find_gatherInto (hkey : ∀ a c, key a = key c → key (combine a c) = key a)
    (found : List α) (c : α) (k : κ) :
    (gatherInto key combine found c).find? (key · = k) =
      if key c = k then some (((found.find? (key · = k)).map (combine · c)).getD c)
      else found.find? (key · = k) := by
  induction found with
  | nil => by_cases hc : key c = k <;> simp [gatherInto, hc]
  | cons a rest ih =>
      rw [gatherInto]
      by_cases hac : key a = key c
      · rw [if_pos hac]
        by_cases hc : key c = k
        · have ha : key a = k := hac.trans hc
          simp [hkey a c hac, ha, hc]
        · have ha : key a ≠ k := fun h => hc (hac.symm.trans h)
          simp [hkey a c hac, ha, hc]
      · rw [if_neg hac]
        by_cases ha : key a = k
        · have hc : key c ≠ k := fun h => hac (ha.trans h.symm)
          simp [ha, hc]
        · simp only [List.find?_cons, ha, decide_false, ih]

/-- **What is gathered at a key** is what the items of this key give by themselves. -/
theorem find_gather (hkey : ∀ a c, key a = key c → key (combine a c) = key a) (items : List α)
    (k : κ) :
    (gather key combine items).find? (key · = k) = combined combine (items.filter (key · = k)) := by
  induction items using List.reverseRecOn with
  | nil => rfl
  | append_singleton items c ih =>
      rw [gather_append_singleton, find_gatherInto hkey, ih, List.filter_append]
      by_cases hc : key c = k
      · rw [if_pos hc, List.filter_singleton, decide_eq_true hc, cond_true,
          combined_append_singleton]
      · rw [if_neg hc, List.filter_singleton, decide_eq_false hc, cond_false, List.append_nil]

theorem keys_gatherInto (hkey : ∀ a c, key a = key c → key (combine a c) = key a)
    (found : List α) (c : α) :
    (gatherInto key combine found c).map key =
      if key c ∈ found.map key then found.map key else found.map key ++ [key c] := by
  induction found with
  | nil => rfl
  | cons a rest ih =>
      rw [gatherInto]
      by_cases hac : key a = key c
      · rw [if_pos hac, List.map_cons, List.map_cons, hkey a c hac,
          if_pos (List.mem_cons.mpr (.inl hac.symm))]
      · rw [if_neg hac, List.map_cons, ih, List.map_cons]
        by_cases hin : key c ∈ rest.map key
        · rw [if_pos hin, if_pos (List.mem_cons_of_mem _ hin)]
        · rw [if_neg hin, if_neg, List.cons_append]
          intro hmem
          rcases List.mem_cons.mp hmem with heq | hmem
          · exact hac heq.symm
          · exact hin hmem

/-- No two gathered items have one key. -/
theorem nodup_keys_gather (hkey : ∀ a c, key a = key c → key (combine a c) = key a)
    (items : List α) : ((gather key combine items).map key).Nodup := by
  induction items using List.reverseRecOn with
  | nil => exact List.nodup_nil
  | append_singleton items c ih =>
      rw [gather_append_singleton, keys_gatherInto hkey]
      split
      · exact ih
      · rename_i hnew
        refine List.nodup_append.mpr ⟨ih, List.nodup_singleton _, ?_⟩
        intro p hp q hq hpq
        exact hnew (by rw [← List.mem_singleton.mp hq, ← hpq]; exact hp)

/-- Every item has its key among the gathered ones. -/
theorem exists_mem_gather (hkey : ∀ a c, key a = key c → key (combine a c) = key a)
    {items : List α} {c : α} (hc : c ∈ items) : ∃ d ∈ gather key combine items, key d = key c := by
  have hmem : c ∈ items.filter (key · = key c) := List.mem_filter.mpr ⟨hc, decide_eq_true rfl⟩
  have hfind := find_gather hkey items (key c)
  cases hat : items.filter (key · = key c) with
  | nil => exact absurd (hat ▸ hmem) List.not_mem_nil
  | cons a rest =>
      rw [hat] at hfind
      have hd := List.find?_some hfind
      exact ⟨_, List.mem_of_find?_eq_some hfind, of_decide_eq_true hd⟩

/-- A gathered item is what is found at its key. -/
theorem find_key_of_mem_gather (hkey : ∀ a c, key a = key c → key (combine a c) = key a)
    {items : List α} {d : α} (hd : d ∈ gather key combine items) :
    (gather key combine items).find? (key · = key d) = some d := by
  cases hfind : (gather key combine items).find? (key · = key d) with
  | none =>
      have hne := List.find?_eq_none.mp hfind d hd
      exact absurd (decide_eq_true rfl) hne
  | some e =>
      have he := List.find?_some hfind
      rw [decide_eq_true_eq] at he
      rw [List.inj_on_of_nodup_map (nodup_keys_gather hkey items) (List.mem_of_find?_eq_some hfind)
        hd he]

/-- **A law of the combination** holds of every gathered item and the items of its key. -/
theorem of_mem_gather (hkey : ∀ a c, key a = key c → key (combine a c) = key a)
    {P : List α → α → Prop} (single : ∀ c, P [c] c)
    (step : ∀ items d c, P items d → P (items ++ [c]) (combine d c)) {items : List α} {d : α}
    (hd : d ∈ gather key combine items) : P (items.filter (key · = key d)) d := by
  have hlaw : ∀ (some : List α) (e : α), combined combine some = Option.some e → P some e := by
    intro some
    induction some using List.reverseRecOn with
    | nil =>
        intro e he
        cases he
    | append_singleton some c ih =>
        intro e he
        rw [combined_append_singleton] at he
        cases hsome : combined combine some with
        | none =>
            have hnil : some = [] := by
              cases some with
              | nil => rfl
              | cons a rest => cases hsome
            rw [hsome] at he
            rw [← Option.some.inj he, hnil]
            exact single c
        | some a =>
            rw [hsome] at he
            rw [← Option.some.inj he]
            exact step some a c (ih a hsome)
  refine hlaw _ d ?_
  rw [← find_gather hkey, find_key_of_mem_gather hkey hd]

end Gather

end CodeChallenges
