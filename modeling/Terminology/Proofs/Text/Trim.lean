import Mathlib.Data.List.DropRight
import Terminology.Proofs.Text.Run

/-!
What trimming takes away: the markup white space at both ends, and nothing else. Where a text is
trimmed piece by piece, more may be lost than by trimming the whole.
-/

namespace Terminology.Text

abbrev Spaces (cs : List Char) : Prop := ∀ c ∈ cs, isMarkupSpace c = true

/-- Text with no markup white space at its ends. -/
def Trimmed (cs : List Char) : Prop :=
  (∀ c ∈ cs.head?, isMarkupSpace c = false) ∧ ∀ c ∈ cs.getLast?, isMarkupSpace c = false

theorem trimmed_nil : Trimmed [] := ⟨nofun, nofun⟩

section

variable {cs lead trail : List Char}

theorem dropWhile_eq_nil_iff_spaces {cs : List Char} :
    cs.dropWhile isMarkupSpace = [] ↔ Spaces cs :=
  List.dropWhile_eq_nil_iff

theorem trimEnd_eq_nil_iff : trimEnd cs = [] ↔ Spaces cs :=
  List.rdropWhile_eq_nil_iff

theorem trimEnd_spaces (spaces : Spaces trail) : trimEnd (cs ++ trail) = trimEnd cs := by
  rw [trimEnd, List.reverse_append, List.dropWhile_append_of_pos]
  · rfl
  · intro c member
    exact spaces c (List.mem_reverse.mp member)

theorem dropWhile_append_left (other : ¬ Spaces lead) :
    (lead ++ trail).dropWhile isMarkupSpace = lead.dropWhile isMarkupSpace ++ trail := by
  have left : (lead.dropWhile isMarkupSpace).isEmpty = false := by
    rw [Bool.eq_false_iff, ne_eq, List.isEmpty_iff, dropWhile_eq_nil_iff_spaces]
    exact other
  rw [List.dropWhile_append, left, if_neg Bool.false_ne_true]

theorem trim_eq_nil_iff : trim cs = [] ↔ Spaces cs := by
  have twice := @dropWhile_eq_nil_iff_spaces (cs.dropWhile isMarkupSpace)
  rw [List.dropWhile_idempotent] at twice
  rw [trim, trimEnd_eq_nil_iff, ← twice, dropWhile_eq_nil_iff_spaces]

theorem trim_lead (spaces : Spaces lead) : trim (lead ++ cs) = trim cs := by
  rw [trim, List.dropWhile_append_of_pos spaces]
  rfl

theorem trim_trail (spaces : Spaces trail) : trim (cs ++ trail) = trim cs := by
  by_cases blank : Spaces cs
  · rw [trim_lead blank, trim_eq_nil_iff.mpr spaces, trim_eq_nil_iff.mpr blank]
  · rw [trim, dropWhile_append_left blank, trimEnd_spaces spaces]
    rfl

theorem trimmed_trim (cs : List Char) : Trimmed (trim cs) := by
  constructor
  · intro c head
    have within : trim cs <+: cs.dropWhile isMarkupSpace := List.rdropWhile_prefix ..
    obtain ⟨inside, shape⟩ := List.head?_eq_some_iff.mp head
    obtain ⟨behind, whole⟩ := within
    rw [shape] at whole
    obtain ⟨-, -, -, -, stops⟩ := split_at_stop whole.symm
    exact stops
  · intro c last
    have some_char : trim cs ≠ [] :=
      List.getLast?_isSome.mp (Option.isSome_iff_exists.mpr ⟨c, last⟩)
    have stops := List.rdropWhile_last_not isMarkupSpace (cs.dropWhile isMarkupSpace) some_char
    rw [List.getLast?_eq_some_getLast some_char] at last
    rw [← Option.some.inj last]
    exact Bool.eq_false_iff.mpr stops

theorem Trimmed.trim_eq (trimmed : Trimmed cs) : trim cs = cs := by
  obtain ⟨first, last⟩ := trimmed
  have begun : cs.dropWhile isMarkupSpace = cs := by
    cases cs with
    | nil => rfl
    | cons c cs => exact List.dropWhile_cons_of_neg (Bool.eq_false_iff.mp (first c rfl))
  have ended : cs.rdropWhile isMarkupSpace = cs := by
    rw [List.rdropWhile_eq_self_iff]
    intro some_char
    exact Bool.eq_false_iff.mp (last _ (List.getLast?_eq_some_getLast some_char))
  rw [trim, begun]
  exact ended

theorem Trimmed.other_around {before after : List Char} {c : Char}
    (trimmed : Trimmed (before ++ c :: after)) (space : isMarkupSpace c = true) :
    ¬ Spaces before ∧ ¬ Spaces after := by
  obtain ⟨first, last⟩ := trimmed
  constructor
  · intro spaces
    have all : Spaces (before ++ [c]) :=
      List.forall_mem_append.mpr ⟨spaces, List.forall_mem_singleton.mpr space⟩
    have begins : ∃ d ∈ before ++ [c], d ∈ (before ++ c :: after).head? := by
      cases before with
      | nil => exact ⟨c, List.mem_cons_self, rfl⟩
      | cons d others => exact ⟨d, List.mem_cons_self, rfl⟩
    obtain ⟨d, member, head⟩ := begins
    cases (all d member).symm.trans (first d head)
  · intro spaces
    have all : Spaces (c :: after) := List.forall_mem_cons.mpr ⟨space, spaces⟩
    have ends : (c :: after).getLast (List.cons_ne_nil c after) ∈
        (before ++ c :: after).getLast? := by
      rw [List.getLast?_append_of_ne_nil _ (List.cons_ne_nil c after)]
      exact List.getLast?_eq_some_getLast _
    cases (all _ (List.getLast_mem _)).symm.trans (last _ ends)

end

def kept (cs : List (Char × Bool)) : List Char := (cs.filter Prod.snd).map Prod.fst

/-- No character that is lost has others than white space on both of its sides. -/
def LostOutside (cs : List (Char × Bool)) : Prop :=
  ∀ before c after, cs = before ++ (c, false) :: after →
    Spaces (before.map Prod.fst) ∨ Spaces (after.map Prod.fst)

section

variable {cs lead core trail : List (Char × Bool)}

theorem kept_append (cs ds : List (Char × Bool)) : kept (cs ++ ds) = kept cs ++ kept ds := by
  rw [kept, List.filter_append, List.map_append]
  rfl

theorem kept_of_forall (all : ∀ entry ∈ cs, entry.2 = true) : kept cs = cs.map Prod.fst := by
  rw [kept, List.filter_eq_self.mpr all]

theorem spaces_kept (spaces : Spaces (cs.map Prod.fst)) : Spaces (kept cs) := by
  intro c member
  exact spaces c ((List.filter_sublist.map Prod.fst).subset member)

theorem forall_of_kept (whole : kept cs = cs.map Prod.fst) : ∀ entry ∈ cs, entry.2 = true := by
  have size := congrArg List.length whole
  rw [kept, List.length_map, List.length_map] at size
  exact List.length_filter_eq_length_iff.mp size

theorem exists_core (cs : List (Char × Bool)) :
    ∃ lead core trail, cs = lead ++ core ++ trail ∧ Spaces (lead.map Prod.fst) ∧
      core.map Prod.fst = trim (cs.map Prod.fst) ∧ Spaces (trail.map Prod.fst) := by
  obtain ⟨before, after, split, spaces, spaces_behind⟩ := trim_split (cs.map Prod.fst)
  obtain ⟨both, trail, rfl, left, rfl⟩ := List.map_eq_append_iff.mp split
  obtain ⟨lead, core, rfl, rfl, middle⟩ := List.map_eq_append_iff.mp left
  exact ⟨lead, core, trail, rfl, spaces, middle, spaces_behind⟩

theorem kept_core (lead_spaces : Spaces (lead.map Prod.fst))
    (trail_spaces : Spaces (trail.map Prod.fst))
    (trimmed : Trimmed (kept (lead ++ core ++ trail))) :
    kept (lead ++ core ++ trail) = kept core := by
  rw [kept_append, kept_append] at trimmed ⊢
  obtain ⟨first, last⟩ := trimmed
  have no_lead : kept lead = [] := by
    cases shape : kept lead with
    | nil => rfl
    | cons c others =>
        have space : isMarkupSpace c = true :=
          spaces_kept lead_spaces c (shape ▸ List.mem_cons_self)
        have other : isMarkupSpace c = false := first c (by rw [shape]; rfl)
        cases space.symm.trans other
  have no_trail : kept trail = [] := by
    cases end_shape : (kept trail).getLast? with
    | none => exact List.getLast?_eq_none_iff.mp end_shape
    | some c =>
        have space : isMarkupSpace c = true :=
          spaces_kept trail_spaces c (List.mem_of_getLast? end_shape)
        have other : isMarkupSpace c = false :=
          last c (by rw [List.getLast?_append, end_shape]; rfl)
        cases space.symm.trans other
  rw [no_lead, no_trail, List.nil_append, List.append_nil]

/-- Lost white space has nothing else on one of its sides exactly if nothing between the first and
the last of the other characters is lost. -/
theorem lostOutside_iff (lost : ∀ c, (c, false) ∈ core → isMarkupSpace c = true)
    (lead_spaces : Spaces (lead.map Prod.fst)) (trimmed : Trimmed (core.map Prod.fst))
    (trail_spaces : Spaces (trail.map Prod.fst)) :
    LostOutside (lead ++ core ++ trail) ↔ ∀ entry ∈ core, entry.2 = true := by
  constructor
  · rintro outside ⟨c, keep⟩ member
    cases keep with
    | true => rfl
    | false =>
        obtain ⟨before, after, rfl⟩ := List.append_of_mem member
        rw [List.map_append, List.map_cons] at trimmed
        obtain ⟨left, right⟩ := trimmed.other_around (lost c member)
        have sides := outside (lead ++ before) c (after ++ trail) (by simp)
        rw [List.map_append, List.map_append] at sides
        rcases sides with spaces | spaces
        · exact absurd (List.forall_mem_append.mp spaces).2 left
        · exact absurd (List.forall_mem_append.mp spaces).1 right
  · intro all before c after split
    have spaces_of_subset {part whole : List (Char × Bool)} (within : part ⊆ whole)
        (spaces : Spaces (whole.map Prod.fst)) : Spaces (part.map Prod.fst) :=
      fun d member => spaces d (List.map_subset Prod.fst within member)
    rcases List.append_eq_append_iff.mp split with ⟨between, -, rfl⟩ | ⟨between, inside, rest⟩
    · exact .inr (spaces_of_subset (by simp) trail_spaces)
    · cases between with
      | nil =>
          rw [List.nil_append] at rest
          exact .inr (spaces_of_subset (by simp [← rest]) trail_spaces)
      | cons entry others =>
          cases rest
          rcases List.append_eq_append_iff.mp inside with ⟨between, -, rfl⟩ | ⟨between, rfl, -⟩
          · have kept_there : false = true := all (c, false) (by simp)
            cases kept_there
          · exact .inl (spaces_of_subset (by simp) lead_spaces)

/-- The losses come to no more than trimming the whole exactly if they are outside all other
characters and what is left is trimmed. -/
theorem kept_eq_trim_iff (lost : ∀ c, (c, false) ∈ cs → isMarkupSpace c = true) :
    kept cs = trim (cs.map Prod.fst) ↔ LostOutside cs ∧ Trimmed (kept cs) := by
  obtain ⟨lead, core, trail, rfl, lead_spaces, middle, trail_spaces⟩ := exists_core cs
  have lost_core : ∀ c, (c, false) ∈ core → isMarkupSpace c = true := fun c member =>
    lost c (List.mem_append_left _ (List.mem_append_right _ member))
  have core_trimmed : Trimmed (core.map Prod.fst) := middle ▸ trimmed_trim _
  rw [lostOutside_iff lost_core lead_spaces core_trimmed trail_spaces, ← middle]
  constructor
  · intro same
    have trimmed : Trimmed (kept (lead ++ core ++ trail)) := same ▸ core_trimmed
    rw [kept_core lead_spaces trail_spaces trimmed] at same
    exact ⟨forall_of_kept same, trimmed⟩
  · rintro ⟨all, trimmed⟩
    rw [kept_core lead_spaces trail_spaces trimmed]
    exact kept_of_forall all

end

end Terminology.Text
