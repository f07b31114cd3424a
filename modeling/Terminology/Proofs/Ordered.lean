import Mathlib.Data.List.Basic
import Terminology.Ordered

/-!
What ascending lists hold. Putting something into a set adds it and nothing else, changing the
value at a key changes no other key, and the lists stay in ascending order, so that a set has one
list only.
-/

namespace Terminology.Ordered

variable {α β : Type} {lt : α → α → Bool}

/-- The laws of a strict order in which any two things are ordered unless they are the same. -/
structure Strict (lt : α → α → Bool) : Prop where
  irrefl : ∀ x, lt x x = false
  trans : ∀ {x y z}, lt x y = true → lt y z = true → lt x z = true
  connected : ∀ {x y}, lt x y = false → lt y x = false → x = y

def Ascending (lt : α → α → Bool) (xs : List α) : Prop := xs.Pairwise fun x y => lt x y = true

theorem Strict.ne {x y : α} (strict : Strict lt) (less : lt x y = true) : x ≠ y := by
  intro same
  rw [same, strict.irrefl] at less
  cases less

theorem Ascending.nodup {xs : List α} (strict : Strict lt) (ascending : Ascending lt xs) :
    xs.Nodup := ascending.imp strict.ne

theorem Strict.asymm {x y : α} (strict : Strict lt) (less : lt x y = true) : lt y x = false := by
  by_contra greater
  rw [Bool.not_eq_false] at greater
  exact strict.ne (strict.trans less greater) rfl

/-- Lists in ascending order with the same members are the same, whatever the order does not tell
apart. -/
theorem Ascending.ext (asymm : ∀ {x y : α}, lt x y = true → lt y x = false) {xs ys : List α}
    (ascending : Ascending lt xs) (ascending' : Ascending lt ys)
    (same : ∀ x, x ∈ xs ↔ x ∈ ys) : xs = ys := by
  have apart {x y : α} (less : lt x y = true) : x ≠ y := by
    intro equal
    have greater := asymm less
    rw [equal] at less greater
    rw [less] at greater
    cases greater
  have perm : xs.Perm ys :=
    (List.perm_ext_iff_of_nodup (ascending.imp apart) (ascending'.imp apart)).mpr same
  apply perm.eq_of_pairwise _ ascending ascending'
  intro x y _ _ less greater
  rw [asymm less] at greater
  cases greater

theorem mem_insert (strict : Strict lt) {x y : α} {set : List α} :
    x ∈ insert lt y set ↔ x = y ∨ x ∈ set := by
  induction set with
  | nil => simp [insert]
  | cons z zs ih =>
      rw [insert]
      split
      · simp
      · split
        · simp only [List.mem_cons, ih, or_left_comm]
        · rename_i not_less not_greater
          have same : y = z :=
            strict.connected (Bool.eq_false_iff.mpr not_less) (Bool.eq_false_iff.mpr not_greater)
          simp [same]

theorem ascending_insert (strict : Strict lt) {x : α} {set : List α}
    (ascending : Ascending lt set) : Ascending lt (insert lt x set) := by
  induction set with
  | nil => exact List.pairwise_singleton _ _
  | cons y ys ih =>
      obtain ⟨first, others⟩ := List.pairwise_cons.mp ascending
      rw [insert]
      split
      · rename_i less
        apply List.pairwise_cons.mpr
        refine ⟨?_, ascending⟩
        exact List.forall_mem_cons.mpr ⟨less, fun z member => strict.trans less (first z member)⟩
      · split
        · rename_i less
          apply List.pairwise_cons.mpr
          refine ⟨?_, ih others⟩
          intro z member
          rcases (mem_insert strict).mp member with rfl | known
          · exact less
          · exact first z known
        · exact ascending

theorem perm_insert (strict : Strict lt) {x : α} {set : List α} (fresh : x ∉ set) :
    (insert lt x set).Perm (x :: set) := by
  induction set with
  | nil => exact .refl _
  | cons y ys ih =>
      obtain ⟨apart, fresh_behind⟩ := not_or.mp (mt List.mem_cons.mpr fresh)
      rw [insert]
      split
      · exact .refl _
      · split
        · exact ((ih fresh_behind).cons y).trans (.swap x y ys)
        · rename_i not_less not_greater
          exact absurd (strict.connected (Bool.eq_false_iff.mpr not_less)
            (Bool.eq_false_iff.mpr not_greater)) apart

theorem mem_insertAll (strict : Strict lt) {x : α} {set xs : List α} :
    x ∈ insertAll lt set xs ↔ x ∈ set ∨ x ∈ xs := by
  induction xs generalizing set with
  | nil => simp [insertAll]
  | cons y ys ih =>
      have step : insertAll lt set (y :: ys) = insertAll lt (insert lt y set) ys := rfl
      rw [step, ih, mem_insert strict, List.mem_cons]
      tauto

theorem ascending_insertAll (strict : Strict lt) {set : List α} (xs : List α)
    (ascending : Ascending lt set) : Ascending lt (insertAll lt set xs) := by
  induction xs generalizing set with
  | nil => exact ascending
  | cons y ys ih => exact ih (ascending_insert strict ascending)

theorem perm_insertAll (strict : Strict lt) {set xs : List α} (fresh : (set ++ xs).Nodup) :
    (insertAll lt set xs).Perm (set ++ xs) := by
  induction xs generalizing set with
  | nil => simp [insertAll]
  | cons y ys ih =>
      have moved : (set ++ y :: ys).Perm (y :: set ++ ys) := List.perm_middle
      have unused : y ∉ set := by
        have apart := List.nodup_cons.mp (moved.nodup_iff.mp fresh)
        exact fun member => apart.1 (List.mem_append_left _ member)
      have added := perm_insert strict unused
      have distinct : (insert lt y set ++ ys).Nodup :=
        (added.append_right ys).nodup_iff.mpr (moved.nodup_iff.mp fresh)
      calc
        insertAll lt set (y :: ys) = insertAll lt (insert lt y set) ys := rfl
        (insertAll lt (insert lt y set) ys).Perm (insert lt y set ++ ys) := ih distinct
        List.Perm _ (y :: set ++ ys) := added.append_right ys
        List.Perm _ (set ++ y :: ys) := moved.symm

theorem mem_ofList (strict : Strict lt) {x : α} {xs : List α} : x ∈ ofList lt xs ↔ x ∈ xs := by
  rw [ofList, mem_insertAll strict]
  simp

theorem ascending_ofList (strict : Strict lt) (xs : List α) : Ascending lt (ofList lt xs) :=
  ascending_insertAll strict xs .nil

theorem ofList_congr (strict : Strict lt) {xs ys : List α} (same : ∀ x, x ∈ xs ↔ x ∈ ys) :
    ofList lt xs = ofList lt ys := by
  apply Ascending.ext strict.asymm (ascending_ofList strict xs) (ascending_ofList strict ys)
  intro x
  rw [mem_ofList strict, mem_ofList strict, same]

theorem perm_ofList (strict : Strict lt) {xs : List α} (distinct : xs.Nodup) :
    (ofList lt xs).Perm xs := perm_insertAll strict distinct

variable {key k : α} {value : β} {f : Option β → β} {map : List (α × β)}

theorem keys_alter : (alter lt key f map).map Prod.fst = insert lt key (map.map Prod.fst) := by
  induction map with
  | nil => rfl
  | cons entry rest ih =>
      obtain ⟨first, old⟩ := entry
      rw [alter, List.map_cons, insert]
      split
      · rfl
      · split
        · rw [List.map_cons, ih]
        · rfl

theorem mem_alter_of_ne (strict : Strict lt) (other : k ≠ key) :
    (k, value) ∈ alter lt key f map ↔ (k, value) ∈ map := by
  induction map with
  | nil => simp [alter, other]
  | cons entry rest ih =>
      obtain ⟨first, old⟩ := entry
      rw [alter]
      split
      · simp [other]
      · split
        · simp only [List.mem_cons, ih]
        · rename_i not_less not_greater
          have same : key = first :=
            strict.connected (Bool.eq_false_iff.mpr not_less) (Bool.eq_false_iff.mpr not_greater)
          rw [same] at other
          simp [other]

theorem mem_alter_self (strict : Strict lt) (ascending : Ascending lt (map.map Prod.fst)) :
    (key, value) ∈ alter lt key f map ↔ (∃ old, (key, old) ∈ map ∧ value = f (some old)) ∨
      (∀ old, (key, old) ∉ map) ∧ value = f none := by
  have absent_of_less {rest : List (α × β)}
      (behind : ∀ k ∈ rest.map Prod.fst, lt key k = true) : ∀ old, (key, old) ∉ rest := by
    intro old member
    exact strict.ne (behind key (List.mem_map_of_mem member)) rfl
  induction map with
  | nil => simp [alter]
  | cons entry rest ih =>
      obtain ⟨first, old⟩ := entry
      rw [List.map_cons] at ascending
      obtain ⟨least, others⟩ := List.pairwise_cons.mp ascending
      rw [alter]
      split
      · rename_i less
        have absent : ∀ found, (key, found) ∉ (first, old) :: rest := by
          apply absent_of_less
          rw [List.map_cons]
          exact List.forall_mem_cons.mpr ⟨less, fun k member => strict.trans less (least k member)⟩
        rw [List.mem_cons]
        simp [absent]
      · split
        · rename_i greater
          have apart : key ≠ first := (strict.ne greater).symm
          simp only [List.mem_cons, Prod.mk.injEq, apart, false_and, false_or, ih others]
        · rename_i not_less not_greater
          have same : key = first :=
            strict.connected (Bool.eq_false_iff.mpr not_less) (Bool.eq_false_iff.mpr not_greater)
          subst same
          have absent := absent_of_less least
          simp [absent]

theorem map_ext (strict : Strict lt) {map' : List (α × β)}
    (ascending : Ascending lt (map.map Prod.fst)) (ascending' : Ascending lt (map'.map Prod.fst))
    (same : ∀ k value, (k, value) ∈ map ↔ (k, value) ∈ map') : map = map' := by
  rw [Ascending, List.pairwise_map] at ascending ascending'
  exact Ascending.ext (fun less => strict.asymm less) ascending ascending' fun entry =>
    same entry.1 entry.2

theorem listLt_cons_iff (strict : Strict lt) {x y : α} {xs ys : List α} :
    listLt lt (x :: xs) (y :: ys) = true ↔ lt x y = true ∨ x = y ∧ listLt lt xs ys = true := by
  rw [listLt]
  split
  · rename_i less
    simp [less]
  · rename_i not_less
    split
    · rename_i greater
      simp [not_less, (strict.ne greater).symm]
    · rename_i not_greater
      have same : x = y :=
        strict.connected (Bool.eq_false_iff.mpr not_less) (Bool.eq_false_iff.mpr not_greater)
      simp [same, strict.irrefl]

theorem listLt_trans (strict : Strict lt) {xs ys zs : List α} (first : listLt lt xs ys = true)
    (second : listLt lt ys zs = true) : listLt lt xs zs = true := by
  induction xs generalizing ys zs with
  | nil =>
      cases zs with
      | nil => cases ys <;> cases second
      | cons z zs => rfl
  | cons x xs ih =>
      cases ys with
      | nil => cases first
      | cons y ys =>
          cases zs with
          | nil => cases second
          | cons z zs =>
              rw [listLt_cons_iff strict] at first second ⊢
              rcases first with less | ⟨rfl, behind⟩
              · rcases second with less' | ⟨rfl, -⟩
                · exact .inl (strict.trans less less')
                · exact .inl less
              · rcases second with less' | ⟨rfl, behind'⟩
                · exact .inl less'
                · exact .inr ⟨rfl, ih behind behind'⟩

theorem listLt_connected (strict : Strict lt) {xs ys : List α} (first : listLt lt xs ys = false)
    (second : listLt lt ys xs = false) : xs = ys := by
  induction xs generalizing ys with
  | nil =>
      cases ys with
      | nil => rfl
      | cons y ys => cases first
  | cons x xs ih =>
      cases ys with
      | nil => cases second
      | cons y ys =>
          rw [Bool.eq_false_iff, Ne, listLt_cons_iff strict, not_or] at first second
          have same : x = y := strict.connected (Bool.eq_false_iff.mpr first.1)
            (Bool.eq_false_iff.mpr second.1)
          subst same
          simp only [true_and, Bool.not_eq_true] at first second
          rw [ih first.2 second.2]

theorem Strict.listLt (strict : Strict lt) : Strict (listLt lt) where
  irrefl := by
    intro xs
    induction xs with
    | nil => rfl
    | cons x xs ih =>
        rw [Bool.eq_false_iff, Ne, listLt_cons_iff strict]
        simp [strict.irrefl, ih]
  trans := listLt_trans strict
  connected := listLt_connected strict

end Terminology.Ordered
