import Terminology.Proofs.Markup.Content

/-!
The order of a text is the order of the tree that it is read as. The elements of the tree, each
before those in it, are the start tags and the empty tags of the text one after the other, as deep
as the tags stand and with the attributes and the character data that stand there.
-/

namespace Terminology.Markup

open Text

namespace Element

/-- The tokens of a text, which begins behind its byte order mark if it has one. -/
def tokens (text : String) : List Token := (Scan.ofText (withoutMark text.toList)).tokens

mutual

/-- An element at the given depth and all that are in it, each before its children. -/
def listing (depth : Nat) : Element → List (Nat × Element)
  | .element name attributes children text =>
      (depth, .element name attributes children text) :: listingAll (depth + 1) children

def listingAll (depth : Nat) : List Element → List (Nat × Element)
  | [] => []
  | e :: es => listing depth e ++ listingAll depth es

end

mutual

theorem depth_le_of_mem_listing {depth : Nat} {entry : Nat × Element} :
    ∀ e : Element, entry ∈ listing depth e → depth ≤ entry.1
  | .element name attributes children text => by
      intro member
      rw [listing, List.mem_cons] at member
      rcases member with rfl | below
      · exact Nat.le_refl depth
      · exact Nat.le_of_succ_le (depth_le_of_mem_listingAll children below)

theorem depth_le_of_mem_listingAll {depth : Nat} {entry : Nat × Element} :
    ∀ es : List Element, entry ∈ listingAll depth es → depth ≤ entry.1
  | [] => nofun
  | e :: es => by
      intro member
      rw [listingAll, List.mem_append] at member
      rcases member with first | others
      · exact depth_le_of_mem_listing e first
      · exact depth_le_of_mem_listingAll es others

end

theorem count_depth_listing (depth : Nat) (e : Element) :
    ((listing depth e).map Prod.fst).count depth = 1 := by
  obtain ⟨name, attributes, children, text⟩ := e
  have below : depth ∉ (listingAll (depth + 1) children).map Prod.fst := by
    intro member
    obtain ⟨entry, listed, same⟩ := List.mem_map.mp member
    have deeper : depth + 1 ≤ entry.1 := depth_le_of_mem_listingAll children listed
    omega
  rw [listing, List.map_cons, List.count_cons_self, List.count_eq_zero_of_not_mem below]

end Element

/-- The tokens directly in the innermost open element, up to its end tag. What stands in other
elements is left out; `level` of them are open in it. -/
def direct : Nat → List Token → List Token
  | _, [] => []
  | level, .opening _ :: ts => direct (level + 1) ts
  | level, .empty _ :: ts => direct level ts
  | 0, .closing _ :: _ => []
  | level + 1, .closing _ :: ts => direct level ts
  | 0, t :: ts => t :: direct 0 ts
  | level + 1, _ :: ts => direct (level + 1) ts

/-- A tag that begins an element: one more than the number of elements that are open there, what
stands in the tag, and the tokens directly in the element. -/
structure Start where
  depth : Nat
  content : List Char
  inside : List Token
  deriving DecidableEq

/-- The start tags and the empty tags among some tokens, in front of which `opened` elements are
open. -/
def starts : Nat → List Token → List Start
  | _, [] => []
  | opened, .opening content :: ts => ⟨opened + 1, content, direct 0 ts⟩ :: starts (opened + 1) ts
  | opened, .empty content :: ts => ⟨opened + 1, content, []⟩ :: starts opened ts
  | opened, .closing _ :: ts => starts (opened - 1) ts
  | opened, _ :: ts => starts opened ts

/-- A tag heads an element of a listing: it is as deep, it has the name and the attributes of the
element, and the character data in it can be read and makes up the text of the element. -/
structure Heads (start : Start) (entry : Nat × Element) : Prop where
  depth : start.depth = entry.1
  tagged : Tagged start.content entry.2.name.toList entry.2.attributes
  readable : ∀ raw, .text raw ∈ start.inside → ∃ value, Stands (trim raw) value
  data : entry.2.text.toList = (start.inside.filterMap Token.data?).flatten

section

variable {t : Token} {ts : List Token} {es : List Element} {pieces : List (List Char)}

theorem starts_of_isIgnored (none_read : t.isIgnored = true) (opened : Nat) :
    starts opened (t :: ts) = starts opened ts := by
  cases t with
  | text _ | comment _ | declaration _ => rfl
  | _ => cases none_read

theorem direct_of_isIgnored (none_read : t.isIgnored = true) :
    direct 0 (t :: ts) = t :: direct 0 ts ∧
      ∀ level, direct (level + 1) (t :: ts) = direct (level + 1) ts := by
  cases t with
  | text _ | comment _ | declaration _ => exact ⟨rfl, fun _ => rfl⟩
  | _ => cases none_read

theorem data_of_isIgnored (none_read : t.isIgnored = true) : t.data? = none := by
  cases t with
  | text raw => exact if_pos none_read
  | comment _ | declaration _ => rfl
  | _ => cases none_read

theorem direct_inside (holds : Holds ts es pieces) (level : Nat) (us : List Token) :
    direct (level + 1) (ts ++ us) = direct (level + 1) us := by
  induction holds generalizing level us with
  | nil => rfl
  | ignored none_read _ ih =>
      rw [List.cons_append, (direct_of_isIgnored none_read).2, ih]
  | text _ _ _ ih => exact ih level us
  | verbatim _ ih => exact ih level us
  | leaf _ _ ih => exact ih level us
  | @node _ _ close _ inner ts _ _ _ _ _ _ _ _ ih_inner ih => calc
      direct (level + 1) (_ :: inner ++ .closing close :: ts ++ us)
        = direct (level + 2) (inner ++ .closing close :: (ts ++ us)) := by
            rw [List.append_assoc]
            rfl
      _ = direct (level + 2) (.closing close :: (ts ++ us)) := ih_inner (level + 1) _
      _ = direct (level + 1) us := ih level us

theorem direct_append (holds : Holds ts es pieces) (us : List Token) :
    direct 0 (ts ++ us) = direct 0 ts ++ direct 0 us := by
  induction holds generalizing us with
  | nil => rfl
  | ignored none_read _ ih =>
      rw [List.cons_append, (direct_of_isIgnored none_read).1, (direct_of_isIgnored none_read).1,
        ih, List.cons_append]
  | text _ _ _ ih => exact congrArg (List.cons _) (ih us)
  | verbatim _ ih => exact congrArg (List.cons _) (ih us)
  | leaf _ _ ih => exact ih us
  | @node _ _ close _ inner ts _ _ _ _ _ within _ _ _ ih =>
      have skip (rest : List Token) :
          direct 1 (inner ++ .closing close :: rest) = direct 0 rest := direct_inside within 0 _
      have left := skip ts
      have both := skip (ts ++ us)
      rw [ih us] at both
      rw [List.append_assoc]
      exact both.trans (congrArg (· ++ direct 0 us) left).symm

theorem direct_of_holds (holds : Holds ts es pieces) :
    (∀ raw, .text raw ∈ direct 0 ts → ∃ value, Stands (trim raw) value) ∧
      (direct 0 ts).filterMap Token.data? = pieces := by
  induction holds with
  | nil => exact ⟨nofun, rfl⟩
  | @ignored t ts _ _ none_read _ ih =>
      obtain ⟨readable, data⟩ := ih
      rw [(direct_of_isIgnored none_read).1]
      constructor
      · intro raw member
        rcases List.mem_cons.mp member with rfl | behind
        · have blank : trim raw = [] := List.isEmpty_iff.mp none_read
          rw [blank]
          exact ⟨[], .nil⟩
        · exact readable raw behind
      · rw [List.filterMap_cons_none (data_of_isIgnored none_read)]
        exact data
  | @text raw piece ts _ _ filled stands _ ih =>
      obtain ⟨readable, data⟩ := ih
      have here : (Token.text raw).data? = some piece := Token.data?_eq_some_iff.mpr
        (.inl ⟨raw, rfl, filled, unescape_eq_ok_iff.mpr stands⟩)
      constructor
      · intro other member
        rcases List.mem_cons.mp member with same | behind
        · cases same
          exact ⟨piece, stands⟩
        · exact readable other behind
      · calc
          (Token.text raw :: direct 0 ts).filterMap Token.data?
            = piece :: (direct 0 ts).filterMap Token.data? := List.filterMap_cons_some here
          _ = _ := congrArg (List.cons piece) data
  | @verbatim content ts _ _ _ ih =>
      obtain ⟨readable, data⟩ := ih
      constructor
      · intro raw member
        rcases List.mem_cons.mp member with same | behind
        · cases same
        · exact readable raw behind
      · exact congrArg (List.cons content) data
  | leaf _ _ ih => exact ih
  | @node content _ close _ inner ts _ _ _ _ _ within _ _ _ ih =>
      have skip : direct 0 (.opening content :: inner ++ .closing close :: ts) = direct 0 ts :=
        direct_inside within 0 (.closing close :: ts)
      rwa [skip]

/-- The tags in some content head what it holds, in order. -/
theorem heads_of_holds (holds : Holds ts es pieces) (opened : Nat) {us : List Token}
    {entries : List (Nat × Element)} (behind : List.Forall₂ Heads (starts opened us) entries) :
    List.Forall₂ Heads (starts opened (ts ++ us))
      (Element.listingAll (opened + 1) es ++ entries) := by
  induction holds generalizing opened us entries with
  | nil => exact behind
  | ignored none_read _ ih =>
      rw [List.cons_append, starts_of_isIgnored none_read]
      exact ih opened behind
  | text _ _ _ ih => exact ih opened behind
  | verbatim _ ih => exact ih opened behind
  | @leaf content name attributes ts es _ tagged _ ih =>
      have heads : Heads ⟨opened + 1, content, []⟩
          (opened + 1, .element (String.ofList name) attributes [] "") :=
        { depth := rfl
          tagged := by rwa [Element.name, String.toList_ofList]
          readable := nofun
          data := rfl }
      exact .cons heads (ih opened behind)
  | @node content name close attributes inner ts children es inside _ tagged within _ _ ih_inner
      ih =>
      have cut : direct 0 (inner ++ .closing close :: (ts ++ us)) = direct 0 inner := by
        rw [direct_append within]
        exact List.append_nil _
      obtain ⟨readable, data⟩ := direct_of_holds within
      have heads : Heads ⟨opened + 1, content, direct 0 inner⟩
          (opened + 1, .element (String.ofList name) attributes children
            (String.ofList inside.flatten)) :=
        { depth := rfl
          tagged := by rwa [Element.name, String.toList_ofList]
          readable := readable
          data := by rw [Element.text, String.toList_ofList, data] }
      -- The end tag takes the level back that the start tag has taken.
      have after : List.Forall₂ Heads (starts (opened + 1) (.closing close :: (ts ++ us)))
          (Element.listingAll (opened + 1) es ++ entries) := ih opened behind
      have below := ih_inner (opened + 1) after
      rw [← cut] at heads
      have all := List.Forall₂.cons heads below
      rw [Element.listingAll, Element.listing, List.append_assoc, List.append_assoc]
      exact all

theorem depths_of_heads {tags : List Start} {entries : List (Nat × Element)}
    (heads : List.Forall₂ Heads tags entries) :
    tags.map Start.depth = entries.map Prod.fst := by
  induction heads with
  | nil => rfl
  | cons first _ ih => rw [List.map_cons, List.map_cons, first.depth, ih]

end

namespace Element

theorem heads_of_parse {limits : Limits} {text : String} {e : Element}
    (read : parse limits text = .ok e) :
    List.Forall₂ Heads (starts 0 (tokens text)) (listing 1 e) := by
  obtain ⟨-, -, -, pieces, holds, -⟩ := parse_eq_ok_iff.mp read
  have nothing : List.Forall₂ Heads (starts 0 []) [] := .nil
  have heads := heads_of_holds holds 0 nothing
  rw [List.append_nil, List.append_nil, listingAll, listingAll, List.append_nil] at heads
  exact heads

end Element

end Terminology.Markup
