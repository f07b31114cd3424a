import Terminology.Proofs.Document.Exchange
import Terminology.Proofs.Markup.Limits

/-!
The limits of writing and of reading are the same: a legal tree is written exactly if its document
is read back.
-/

namespace Terminology

open Markup

theorem Markup.Element.parse_printed_iff {limits : Limits} {indent : Nat} {e found : Element}
    (writable : e.Writable) :
    parse limits (e.printed indent) = .ok found ↔
      found = e ∧ e.depth ≤ limits.maxDepth ∧
        (e.printed indent).utf8ByteSize ≤ limits.maxBytes := by
  constructor
  · intro read
    let wide : Limits :=
      ⟨max limits.maxDepth e.depth, max limits.maxBytes (e.printed indent).utf8ByteSize⟩
    have known : parse wide (e.printed indent) = .ok e :=
      parse_printed writable (Nat.le_max_right ..) (Nat.le_max_right ..)
    have again : parse wide (e.printed indent) = .ok found :=
      parse_of_le read (Nat.le_max_left ..) (Nat.le_max_left ..)
    obtain rfl : found = e := Except.ok.inj (again.symm.trans known)
    obtain ⟨small, shallow, -⟩ := parse_eq_ok_iff.mp read
    exact ⟨rfl, shallow, small⟩
  · rintro ⟨rfl, shallow, small⟩
    exact parse_printed writable shallow small

namespace Document

variable {settings : Settings} {e : Expression}

theorem deserialize_printed_iff {indent : Nat} {found : Expression} (legal : e.Legal) :
    deserialize settings (e.element.printed indent) = .ok found ↔
      found = e ∧ e.depth ≤ settings.maxDepth ∧
        (e.element.printed indent).utf8ByteSize ≤ settings.maxBytes := by
  constructor
  · intro read
    cases parsed : Element.parse settings.toLimits (e.element.printed indent) with
    | error m =>
        rw [deserialize, parsed] at read
        cases read
    | ok root =>
        obtain ⟨rfl, shallow, small⟩ := (Element.parse_printed_iff e.writable_element).mp parsed
        rw [e.depth_element] at shallow
        have known := deserialize_printed shallow legal small
        exact ⟨Except.ok.inj (read.symm.trans known), shallow, small⟩
  · rintro ⟨rfl, shallow, small⟩
    exact deserialize_printed shallow legal small

/-- Writing a legal tree succeeds within the limits and only there, and so does reading its
document; what is written is that document, and what is read is that tree. -/
theorem serialize_iff_deserialize (valid : e.validate = .ok ()) (settings : Settings) :
    ∃ document, e.document settings.indent = .ok document ∧
      ((∃ text, serialize settings e = .ok text) ↔
        ∃ read, deserialize settings document = .ok read) ∧
      (∀ text, serialize settings e = .ok text ↔ text = document ∧
        e.depth ≤ settings.maxDepth ∧ document.utf8ByteSize ≤ settings.maxBytes) ∧
      ∀ read, deserialize settings document = .ok read ↔ read = e ∧
        e.depth ≤ settings.maxDepth ∧ document.utf8ByteSize ≤ settings.maxBytes := by
  have legal : e.Legal := (Expression.validateAt_eq_ok_iff _ e).mp valid
  have written (text : String) : serialize settings e = .ok text ↔
      text = e.element.printed settings.indent ∧ e.depth ≤ settings.maxDepth ∧
        (e.element.printed settings.indent).utf8ByteSize ≤ settings.maxBytes := by
    rw [serialize_eq_ok_iff]
    constructor
    · rintro ⟨shallow, -, rfl, small⟩
      exact ⟨rfl, shallow, small⟩
    · rintro ⟨rfl, shallow, small⟩
      exact ⟨shallow, legal, rfl, small⟩
  have read (found : Expression) := @deserialize_printed_iff settings e settings.indent found legal
  refine ⟨_, Expression.document_element legal settings.indent, ?_, written, read⟩
  simp only [written, read, exists_eq_left]

theorem serialize_iff_deserialize_tight :
    let settings : Settings := { maxDepth := 2, maxBytes := 176 }
    let e := Expression.feature ⟨Kind.space⟩ .equals (.literal (.string "a < \"é\"\n"))
    e.validate = .ok () ∧ ∃ document, e.document settings.indent = .ok document ∧
      ((∃ text, serialize settings e = .ok text) ↔
        ∃ read, deserialize settings document = .ok read) ∧
      (∀ text, serialize settings e = .ok text ↔ text = document ∧
        e.depth ≤ settings.maxDepth ∧ document.utf8ByteSize ≤ settings.maxBytes) ∧
      ∀ read, deserialize settings document = .ok read ↔ read = e ∧
        e.depth ≤ settings.maxDepth ∧ document.utf8ByteSize ≤ settings.maxBytes := by
  intro settings e
  have valid : e.validate = .ok () := by decide +kernel
  exact ⟨valid, serialize_iff_deserialize valid settings⟩

end Document

end Terminology
