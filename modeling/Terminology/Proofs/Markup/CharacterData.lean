import Terminology.Proofs.Markup.Order
import Terminology.Proofs.Text.Trim

/-!
The text of an element and the character data that stands in it. The reader trims each run of text
by itself, before it replaces references, and it trims no CDATA section. So white space next to a
comment, a child element or a CDATA section is lost even in the middle of the text, and white space
that a reference stands for or that a CDATA section ends with is kept even at its ends. Where
neither happens the text is the character data as it stands there, trimmed as a whole.
-/

namespace Terminology.Markup

open Text

namespace Token

/-- The character data that a token is written for: references are replaced and nothing is
trimmed. -/
def written : Token → List Char
  | text raw => (unescape raw).toOption.getD []
  | verbatim content => content
  | _ => []

/-- The characters of what a token is written for, each with whether it is kept. -/
def characters : Token → List (Char × Bool)
  | text raw =>
      (raw.takeWhile isMarkupSpace).map (·, false) ++
        ((unescape (trim raw)).toOption.getD []).map (·, true) ++
          ((raw.dropWhile isMarkupSpace).rtakeWhile isMarkupSpace).map (·, false)
  | verbatim content => content.map (·, true)
  | _ => []

end Token

theorem fst_marked (keep : Bool) (cs : List Char) : (cs.map (·, keep)).map Prod.fst = cs := by
  rw [List.map_map]
  exact List.map_id cs

theorem kept_all (cs : List Char) : kept (cs.map (·, true)) = cs := by
  rw [kept_of_forall (by simp), fst_marked]

theorem kept_none (cs : List Char) : kept (cs.map (·, false)) = [] := by
  rw [kept, List.filter_eq_nil_iff.mpr (by simp)]
  rfl

theorem trim_parts (raw : List Char) :
    raw.takeWhile isMarkupSpace ++ trim raw ++
      (raw.dropWhile isMarkupSpace).rtakeWhile isMarkupSpace = raw := by
  have ended : trim raw ++ (raw.dropWhile isMarkupSpace).rtakeWhile isMarkupSpace =
      raw.dropWhile isMarkupSpace := List.rdropWhile_append_rtakeWhile ..
  rw [List.append_assoc, ended, List.takeWhile_append_dropWhile]

/-- What is read of a token is what is kept of what it is written for, and only white space is
lost. -/
structure Accounted (inside : List Token) : Prop where
  written : inside.flatMap Token.written = (inside.flatMap Token.characters).map Prod.fst
  data : (inside.filterMap Token.data?).flatten = kept (inside.flatMap Token.characters)
  lost : ∀ c, (c, false) ∈ inside.flatMap Token.characters → isMarkupSpace c = true

theorem data_text {raw value : List Char} (stands : Stands (trim raw) value) :
    ([Token.text raw].filterMap Token.data?).flatten = value := by
  by_cases blank : trim raw = []
  · rw [blank] at stands
    have ignored : (Token.text raw).data? = none := if_pos (List.isEmpty_iff.mpr blank)
    have nothing : value = [] := stands.unique .nil |>.symm
    rw [List.filterMap_cons_none ignored, nothing]
    rfl
  · have read : (Token.text raw).data? = some value := Token.data?_eq_some_iff.mpr
      (.inl ⟨raw, rfl, blank, unescape_eq_ok_iff.mpr stands⟩)
    rw [List.filterMap_cons_some read]
    exact List.append_nil value

theorem accounted_text {raw value : List Char} (stands : Stands (trim raw) value) :
    Accounted [.text raw] := by
  let lead := raw.takeWhile isMarkupSpace
  let trail := (raw.dropWhile isMarkupSpace).rtakeWhile isMarkupSpace
  have spaces : Spaces lead := fun c member => List.mem_takeWhile_imp member
  have spaces_behind : Spaces trail := fun c member => List.mem_rtakeWhile_imp member
  have whole : Stands raw (lead ++ value ++ trail) := by
    have between := stands_between spaces stands spaces_behind
    rwa [trim_parts] at between
  have characters : [Token.text raw].flatMap Token.characters =
      lead.map (·, false) ++ value.map (·, true) ++ trail.map (·, false) := by
    rw [List.flatMap_singleton, Token.characters, unescape_eq_ok_iff.mpr stands]
    rfl
  refine ⟨?_, ?_, ?_⟩
  · rw [characters, List.map_append, List.map_append, fst_marked, fst_marked, fst_marked,
      List.flatMap_singleton, Token.written, unescape_eq_ok_iff.mpr whole]
    rfl
  · rw [characters, kept_append, kept_append, kept_none, kept_all, kept_none, List.nil_append,
      List.append_nil]
    exact data_text stands
  · intro c member
    rw [characters] at member
    simp only [List.mem_append, List.mem_map, Prod.mk.injEq, reduceCtorEq, and_false, exists_false,
      and_true, exists_eq_right, or_false] at member
    exact member.elim (spaces c) (spaces_behind c)

theorem accounted_verbatim (content : List Char) : Accounted [.verbatim content] := by
  have characters : [Token.verbatim content].flatMap Token.characters = content.map (·, true) :=
    List.flatMap_singleton ..
  refine ⟨?_, ?_, ?_⟩
  · rw [characters, fst_marked, List.flatMap_singleton]
    rfl
  · rw [characters, kept_all]
    exact List.append_nil content
  · intro c member
    rw [characters, List.mem_map] at member
    obtain ⟨_, _, same⟩ := member
    cases same

theorem Accounted.append {inside others : List Token} (first : Accounted inside)
    (second : Accounted others) : Accounted (inside ++ others) where
  written := by
    rw [List.flatMap_append, List.flatMap_append, List.map_append, first.written, second.written]
  data := by
    rw [List.filterMap_append, List.flatten_append, List.flatMap_append, kept_append, first.data,
      second.data]
  lost := by
    intro c member
    rw [List.flatMap_append] at member
    exact (List.mem_append.mp member).elim (first.lost c) (second.lost c)

theorem accounted_of_readable {inside : List Token}
    (readable : ∀ raw, .text raw ∈ inside → ∃ value, Stands (trim raw) value) :
    Accounted inside := by
  induction inside with
  | nil => exact ⟨rfl, rfl, nofun⟩
  | cons t inside ih =>
      have others : Accounted inside := ih fun raw member => readable raw (.tail t member)
      have here : Accounted [t] := by
        cases t with
        | text raw =>
            obtain ⟨value, stands⟩ := readable raw List.mem_cons_self
            exact accounted_text stands
        | verbatim content => exact accounted_verbatim content
        | _ => exact ⟨rfl, rfl, nofun⟩
      exact here.append others

namespace Element

/-- The text of every element is the character data directly in it, all of which can be read, less
some white space. It is that character data trimmed as a whole exactly if no white space is lost
between two other characters and none is left at the ends. -/
theorem text_of_parse {limits : Limits} {text : String} {e : Element}
    (read : parse limits text = .ok e) :
    List.Forall₂ (fun start entry =>
        (∀ raw, .text raw ∈ start.inside → ∃ value, unescape raw = .ok value) ∧
        Accounted start.inside ∧
        entry.2.text.toList = kept (start.inside.flatMap Token.characters) ∧
        (entry.2.text.toList = trim (start.inside.flatMap Token.written) ↔
          LostOutside (start.inside.flatMap Token.characters) ∧ Trimmed entry.2.text.toList))
      (starts 0 (tokens text)) (listing 1 e) := by
  apply (heads_of_parse read).imp
  intro start entry heads
  have accounted : Accounted start.inside := accounted_of_readable heads.readable
  have remains : entry.2.text.toList = kept (start.inside.flatMap Token.characters) :=
    heads.data.trans accounted.data
  refine ⟨?_, accounted, remains, ?_⟩
  · intro raw member
    obtain ⟨piece, stands⟩ := heads.readable raw member
    obtain ⟨value, whole⟩ := stands_of_trim stands
    exact ⟨value, unescape_eq_ok_iff.mpr whole⟩
  · rw [remains, accounted.written]
    exact kept_eq_trim_iff accounted.lost

/-- White space around the text and the child element is lost at its ends only. -/
theorem text_of_parse_outside :
    let limits : Limits := { maxDepth := 2, maxBytes := 64 }
    let text := "<a> x &amp;\ty <b> z</b> </a>"
    ∃ e, parse limits text = .ok e ∧
      (listing 1 e).map (fun entry => entry.2.text) = ["x &\ty", "z"] ∧
      List.Forall₂ (fun start entry =>
          (∀ raw, .text raw ∈ start.inside → ∃ value, unescape raw = .ok value) ∧
          Accounted start.inside ∧
          entry.2.text.toList = kept (start.inside.flatMap Token.characters) ∧
          (entry.2.text.toList = trim (start.inside.flatMap Token.written) ↔
            LostOutside (start.inside.flatMap Token.characters) ∧ Trimmed entry.2.text.toList))
        (starts 0 (tokens text)) (listing 1 e) := by
  intro limits text
  have known : (parse limits text).toOption.map
      (fun e => (listing 1 e).map fun entry => entry.2.text) = some ["x &\ty", "z"] := by
    decide +kernel
  obtain ⟨e, parsed, view⟩ := exists_of_view known
  exact ⟨e, parsed, view, text_of_parse parsed⟩

/-- White space on both sides of a comment is lost, although the character data has letters on both
sides of it; and a CDATA section leaves white space at both ends of a text. -/
theorem text_not_trimmed_as_a_whole :
    (let text := "<a>x <!--c--> y</a>"
      ∃ e, parse {} text = .ok e ∧ e.text = "xy" ∧
        ¬ List.Forall₂ (fun start entry =>
            entry.2.text.toList = trim (start.inside.flatMap Token.written))
          (starts 0 (tokens text)) (listing 1 e)) ∧
    ∃ e, parse {} "<a><![CDATA[ x ]]></a>" = .ok e ∧ e.text = " x " ∧ ¬ Trimmed e.text.toList := by
  constructor
  · intro text
    have known : (parse {} text).toOption.map
        (fun e => (e.text, (listing 1 e).map fun entry => entry.2.text.toList)) =
          some ("xy", ["xy".toList]) := by decide +kernel
    obtain ⟨e, parsed, view⟩ := exists_of_view known
    obtain ⟨short, texts⟩ := Prod.mk.inj view
    refine ⟨e, parsed, short, ?_⟩
    intro whole
    have same :
        (starts 0 (tokens text)).map (fun start => trim (start.inside.flatMap Token.written)) =
          (listing 1 e).map fun entry => entry.2.text.toList := by
      rw [← List.forall₂_eq_eq_eq, List.forall₂_map_left_iff, List.forall₂_map_right_iff]
      exact whole.imp fun _ _ equal => equal.symm
    rw [texts] at same
    revert same
    decide +kernel
  · have known : (parse {} "<a><![CDATA[ x ]]></a>").toOption.map text = some " x " := by
      decide +kernel
    obtain ⟨e, parsed, view⟩ := exists_of_view known
    refine ⟨e, parsed, view, ?_⟩
    rintro ⟨first, -⟩
    rw [view] at first
    cases first ' ' (by decide)

end Element

end Terminology.Markup
