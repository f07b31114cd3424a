import Terminology.Document.Exchange
import Terminology.Proofs.Document.Content

/-!
Documents hold what was written: a written tree reads back, and a tree that was read is legal, so
that writing it can only fail for the size of its document.
-/

namespace Terminology

open Markup

namespace Expression

mutual

theorem depth_of_ofElementAt {path : Path} {root : Element} {e : Expression}
    (read : ofElementAt path root = .ok e) : e.depth = root.depth := by
  obtain ⟨name, attributes, children, text⟩ := root
  rw [ofElementAt] at read
  cases alone : ofElementAlone (.element name attributes children text) with
  | error refused =>
      rw [alone] at read
      cases read
  | ok found =>
      obtain ⟨kind, payload⟩ := found
      simp only [alone] at read
      cases below : ofElementsAt path 0 children with
      | error misplaced =>
          rw [below] at read
          cases read
      | ok es =>
          rw [below] at read
          cases read
          rw [depth, Element.depth, depthAll_of_ofElementsAt below]

theorem depthAll_of_ofElementsAt {path : Path} {index : Nat} {roots : List Element}
    {es : List Expression} (read : ofElementsAt path index roots = .ok es) :
    depthAll es = Element.depthAll roots := by
  cases roots with
  | nil =>
      cases read
      rfl
  | cons root roots =>
      rw [ofElementsAt] at read
      cases first : ofElementAt (path.step index root.name) root with
      | error misplaced =>
          rw [first] at read
          cases read
      | ok e =>
          simp only [first] at read
          cases others : ofElementsAt path (index + 1) roots with
          | error misplaced =>
              rw [others] at read
              cases read
          | ok rest =>
              rw [others] at read
              cases read
              rw [depthAll, Element.depthAll, depth_of_ofElementAt first,
                depthAll_of_ofElementsAt others]

end

theorem legal_of_ofElement {root : Element} {e : Expression} (read : ofElement root = .ok e) :
    e.Legal ∧ e.depth = root.depth := by
  rw [ofElement] at read
  cases tree : ofElementAt (.root root.name) root with
  | error misplaced =>
      rw [tree] at read
      cases read
  | ok found =>
      rw [tree] at read
      simp only [bind, Except.bind] at read
      cases valid : found.validate with
      | error refused =>
          rw [valid] at read
          cases read
      | ok checked =>
          rw [valid] at read
          cases read
          exact ⟨(validateAt_eq_ok_iff _ e).mp valid, depth_of_ofElementAt tree⟩

end Expression

namespace Document

variable {settings : Settings} {e : Expression} {text : String}

theorem checkWritable_eq_ok_iff :
    checkWritable settings e = .ok () ↔ e.depth ≤ settings.maxDepth ∧ e.Legal := by
  rw [checkWritable, ← Expression.validateAt_eq_ok_iff (.root e.kind.tag)]
  by_cases deep : settings.maxDepth < e.depth
  · simp [deep, Nat.not_le.mpr deep]
  · simp [deep, Nat.not_lt.mp deep, Expression.validate]

theorem serialize_of_legal (shallow : e.depth ≤ settings.maxDepth) (legal : e.Legal) :
    serialize settings e =
      if settings.maxBytes < (e.element.printed settings.indent).utf8ByteSize then
        .error (.invalid ⟨.root e.kind.tag,
          .tooLarge (e.element.printed settings.indent).utf8ByteSize settings.maxBytes⟩)
      else .ok (e.element.printed settings.indent) := by
  rw [serialize, checkWritable_eq_ok_iff.mpr ⟨shallow, legal⟩]
  simp only [Expression.document_element legal]

theorem serialize_eq_ok_iff :
    serialize settings e = .ok text ↔
      e.depth ≤ settings.maxDepth ∧ e.Legal ∧ text = e.element.printed settings.indent ∧
        text.utf8ByteSize ≤ settings.maxBytes := by
  constructor
  · intro written
    cases checked : checkWritable settings e with
    | error refused =>
        rw [serialize, checked] at written
        cases written
    | ok _ =>
        obtain ⟨shallow, legal⟩ := checkWritable_eq_ok_iff.mp checked
        rw [serialize_of_legal shallow legal] at written
        split at written
        · cases written
        · rename_i small
          cases written
          exact ⟨shallow, legal, rfl, Nat.not_lt.mp small⟩
  · intro writable
    obtain ⟨shallow, legal, rfl, small⟩ := writable
    rw [serialize_of_legal shallow legal, if_neg (Nat.not_lt.mpr small)]

theorem deserialize_of_parse_error {m : Markup.Malformed}
    (refused : Element.parse settings.toLimits text = .error m) :
    deserialize settings text = .error (.markup m) := by
  rw [deserialize, refused]

theorem deserialize_of_parse {root : Element}
    (read : Element.parse settings.toLimits text = .ok root) :
    deserialize settings text = (Expression.ofElement root).mapError .content := by
  cases found : Expression.ofElement root <;>
    simp only [deserialize, read, found, Except.mapError]

/-- The document of a legal tree reads back as that tree within the limits. -/
theorem deserialize_printed {indent : Nat} (shallow : e.depth ≤ settings.maxDepth)
    (legal : e.Legal) (small : (e.element.printed indent).utf8ByteSize ≤ settings.maxBytes) :
    deserialize settings (e.element.printed indent) = .ok e := by
  have parsed := @Element.parse_printed settings.toLimits indent _ e.writable_element
    (by rwa [e.depth_element]) small
  rw [deserialize, parsed]
  simp only [Expression.ofElement_element legal]

theorem legal_of_deserialize (read : deserialize settings text = .ok e) :
    e.depth ≤ settings.maxDepth ∧ e.Legal := by
  rw [deserialize] at read
  cases parsed : Element.parse settings.toLimits text with
  | error m =>
      rw [parsed] at read
      cases read
  | ok root =>
      simp only [parsed] at read
      cases described : Expression.ofElement root with
      | error m =>
          rw [described] at read
          cases read
      | ok found =>
          rw [described] at read
          cases read
          obtain ⟨legal, depth⟩ := Expression.legal_of_ofElement described
          exact ⟨depth ▸ Element.depth_of_parse parsed, legal⟩

/-- A written tree reads back from its document. -/
theorem deserialize_of_serialize (written : serialize settings e = .ok text) :
    deserialize settings text = .ok e := by
  obtain ⟨shallow, legal, rfl, small⟩ := serialize_eq_ok_iff.mp written
  exact deserialize_printed shallow legal small

theorem deserialize_of_serialize_feature :
    let e := Expression.feature ⟨Kind.space⟩ .equals (.literal (.string "a < \"b\"\n"))
    let text := "<?xml version=\"1.0\" encoding=\"UTF-8\"?>\n" ++
      "<feature feature=\"d96cb408-b9ae-473d-a08d-ece06dbcedf9\" operator=\"equals\">\n" ++
      "  <literal-string value=\"a &lt; &quot;b&quot;\n\"/>\n" ++ "</feature>\n"
    serialize {} e = .ok text ∧ deserialize {} text = .ok e := by
  intro e text
  have written : serialize {} e = .ok text := by decide +kernel
  exact ⟨written, deserialize_of_serialize written⟩

/-- Whatever text a tree was read from, there is one document that the tree is written as. It is
written and reads back as the same tree, unless it is too large, and then its size is the only
fault. -/
theorem canonical_of_deserialize (read : deserialize settings text = .ok e) :
    ∃ document, e.document settings.indent = .ok document ∧
      (settings.maxBytes < document.utf8ByteSize ∧
          serialize settings e = .error (.invalid ⟨.root e.kind.tag,
            .tooLarge document.utf8ByteSize settings.maxBytes⟩) ∨
        serialize settings e = .ok document ∧ deserialize settings document = .ok e) := by
  obtain ⟨shallow, legal⟩ := legal_of_deserialize read
  refine ⟨e.element.printed settings.indent, Expression.document_element legal settings.indent,
    ?_⟩
  have written := serialize_of_legal shallow legal
  by_cases small : (e.element.printed settings.indent).utf8ByteSize ≤ settings.maxBytes
  · rw [if_neg (Nat.not_lt.mpr small)] at written
    exact .inr ⟨written, deserialize_printed shallow legal small⟩
  · rw [if_pos (Nat.not_le.mp small)] at written
    exact .inl ⟨Nat.not_le.mp small, written⟩

theorem canonical_of_deserialize_concept :
    let settings : Settings := {}
    let text := "<!-- spelt otherwise --><concept concept='\x7bD96CB408-B9AE-473D-A08D-" ++
      "ECE06DBCEDF9\x7d'></concept>"
    let e := Expression.concept ⟨Kind.space⟩
    deserialize settings text = .ok e ∧
      ∃ document, e.document settings.indent = .ok document ∧
        (settings.maxBytes < document.utf8ByteSize ∧
            serialize settings e = .error (.invalid ⟨.root e.kind.tag,
              .tooLarge document.utf8ByteSize settings.maxBytes⟩) ∨
          serialize settings e = .ok document ∧ deserialize settings document = .ok e) := by
  intro settings text e
  have read : deserialize settings text = .ok e := by decide +kernel
  exact ⟨read, canonical_of_deserialize read⟩

end Document

end Terminology
