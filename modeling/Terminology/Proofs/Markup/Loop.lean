import Terminology.Proofs.Markup.Order

/-!
The loop over the tokens of a text as two layers. The reader matches end tags with start tags by
name before the loop sees them; the loop has its own stack of unfinished elements, from which it
takes what an end tag closes, and gives a closed element to what is left of the stack. The loop is
written here with the two refusals it would have if the reader let through what does not match.
Neither of them ever arises, and what is left is the parser.
-/

namespace Terminology.Markup

open Text

/-- Why the loop refuses a text. The last two are its own: "closing tag without opening tag", and
"document has more than one root element" for an element that is closed where it has no place. -/
inductive Refusal where
  | malformed (m : Malformed)
  | nothingOpen
  | noPlace
  deriving DecidableEq

/-- The names of the elements that are open for the reader, the innermost first, and what the loop
has put together so far. -/
structure Loop where
  opened : List (List Char)
  assembly : Assembly

namespace Loop

def start : Loop := ⟨[], .start⟩

/-- What a token does to the names that the reader holds. An end tag must have the innermost. -/
def read (l : Loop) : Token → Except Malformed (List (List Char))
  | .opening content => .ok (tagName content :: l.opened)
  | .closing content =>
      match l.opened with
      | [] => .error (.unmatched l.assembly.offset (Assembly.closingName content))
      | name :: names =>
          if name = Assembly.closingName content then .ok names
          else .error (.mismatched l.assembly.offset name (Assembly.closingName content))
  | _ => .ok l.opened

def attach (e : Element) (a : Assembly) : Except Refusal Assembly :=
  match a.stack with
  | f :: fs => .ok { a with stack := { f with children := e :: f.children } :: fs }
  | [] => if a.root.isSome then .error .noPlace else .ok { a with root := some e }

/-- What the loop makes of a token that the reader let through. An end tag closes the element on
top of the stack whatever its name is. -/
def handle (maxDepth : Nat) (a : Assembly) : Token → Except Refusal Assembly
  | .empty content => do
      (a.checkOpen maxDepth).mapError .malformed
      let f ← (Frame.ofTag content).mapError .malformed
      attach f.close a
  | .closing _ =>
      match a.stack with
      | [] => .error .nothingOpen
      | f :: fs => attach f.close { a with stack := fs }
  | t => (a.interpret maxDepth t).mapError .malformed

def step (maxDepth : Nat) (l : Loop) (t : Token) : Except Refusal Loop := do
  let opened ← (l.read t).mapError .malformed
  let next ← handle maxDepth l.assembly t
  return ⟨opened, { next with offset := l.assembly.offset + byteLength t.source }⟩

def ofScan (maxDepth : Nat) (s : Scan) : Except Refusal Element := do
  let l ← s.tokens.foldlM (step maxDepth) start
  match s.fault with
  | some fault => .error (.malformed (.fault (l.assembly.offset + fault.shift) fault))
  | none => l.assembly.finish.mapError .malformed

def parse (limits : Limits) (text : String) : Except Refusal Element :=
  if limits.maxBytes < text.utf8ByteSize then
    .error (.malformed (.tooLarge text.utf8ByteSize limits.maxBytes))
  else ofScan limits.maxDepth (.ofText (Element.withoutMark text.toList))

def Reached (limits : Limits) (text : String) (l : Loop) : Prop :=
  ∃ ts, ts <+: Element.tokens text ∧ ts.foldlM (step limits.maxDepth) start = .ok l

/-- A state in which the reader and the loop hold the same elements open. -/
def ofAssembly (a : Assembly) : Loop := ⟨a.stack.map Frame.name, a⟩

/-- No element is open, or the root is not closed yet. -/
def Sound (a : Assembly) : Prop := a.stack = [] ∨ a.root = none

section

variable {maxDepth : Nat} {a b : Assembly} {t : Token}

theorem names_receive (e : Element) (a : Assembly) :
    (a.receive e).stack.map Frame.name = a.stack.map Frame.name := by
  obtain ⟨offset, stack, root⟩ := a
  cases stack <;> rfl

theorem attach_of_ready (ready : a.Ready) (e : Element) : attach e a = .ok (a.receive e) := by
  obtain ⟨offset, stack, root⟩ := a
  cases stack with
  | nil =>
      have free : root = none := ready rfl
      rw [free]
      rfl
  | cons f fs => rfl

theorem sound_receive (sound : Sound a) (e : Element) : Sound (a.receive e) := by
  obtain ⟨offset, stack, root⟩ := a
  cases stack with
  | nil => exact .inl rfl
  | cons f fs =>
      have free : root = none := sound.resolve_left (List.cons_ne_nil f fs)
      exact .inr free

/-- Every token keeps the loop sound, and so it never has both a root and an open element. -/
theorem sound_moves (moves : Assembly.Moves maxDepth a t b) (sound : Sound a) : Sound b := by
  have free {f : Frame} {fs : List Frame} (stack : a.stack = f :: fs) : a.root = none :=
    sound.resolve_left (stack ▸ List.cons_ne_nil f fs)
  cases moves with
  | ignored none_read => exact sound
  | inside data stack => exact .inr (free stack)
  | outside data stack blank => exact sound
  | opening room ready tag => exact .inr (sound.elim ready id)
  | empty room ready tag => exact sound_receive sound _
  | @closing _ _ fs stack same ready =>
      have around : Sound { a with stack := fs } := .inr (free stack)
      exact sound_receive around _

theorem name_ofTag {content : List Char} {f : Frame} (tag : Frame.ofTag content = .ok f) :
    f.name = tagName content := by
  rw [Frame.ofTag] at tag
  split at tag
  · cases tag
    rfl
  · cases tag

theorem read_of_data {piece : List Char} (data : t.data? = some piece) (l : Loop) :
    l.read t = .ok l.opened := by
  rcases Token.data?_eq_some_iff.mp data with ⟨raw, rfl, -⟩ | rfl
  · rfl
  · rfl

theorem read_of_moves (moves : Assembly.Moves maxDepth a t b) :
    (ofAssembly a).read t = .ok (b.stack.map Frame.name) := by
  cases moves with
  | ignored none_read =>
      cases t with
      | text _ | comment _ | declaration _ => rfl
      | _ => cases none_read
  | inside data stack =>
      rw [read_of_data data, ofAssembly, stack]
      rfl
  | outside data stack blank => exact read_of_data data _
  | opening room ready tag =>
      rw [List.map_cons, name_ofTag tag]
      rfl
  | empty room ready tag =>
      rw [names_receive]
      rfl
  | closing stack same ready =>
      rw [names_receive, read, ofAssembly, stack]
      exact if_pos same

theorem handle_empty (content : List Char) :
    handle maxDepth a (.empty content) = (a.emptyElement maxDepth content).mapError .malformed := by
  rw [handle, Assembly.emptyElement]
  cases check : a.checkOpen maxDepth with
  | error m => rfl
  | ok _ =>
      have ready : a.Ready := (Assembly.checkOpen_iff.mp check).1
      cases tag : Frame.ofTag content with
      | error m => rfl
      | ok f => calc
          attach f.close a = .ok (a.receive f.close) := attach_of_ready ready f.close
          _ = (a.attach f.close).mapError .malformed := by
            rw [Assembly.attach_iff.mpr ⟨ready, rfl⟩]
            rfl

theorem handle_eq (other : ∀ content, t ≠ .closing content) :
    handle maxDepth a t = (a.interpret maxDepth t).mapError .malformed := by
  cases t with
  | empty content => exact handle_empty content
  | closing content => exact absurd rfl (other content)
  | _ => rfl

theorem handle_of_moves (moves : Assembly.Moves maxDepth a t b) :
    handle maxDepth a t = .ok b := by
  have taken : a.interpret maxDepth t = .ok b := Assembly.interpret_iff.mpr moves
  have plain (other : ∀ content, t ≠ .closing content) : handle maxDepth a t = .ok b := by
    rw [handle_eq other, taken]
    rfl
  cases t with
  | closing content =>
      obtain ⟨f, fs, stack, same, ready, rfl⟩ := Assembly.closeElement_iff.mp taken
      have around : ({ a with stack := fs } : Assembly).Ready := ready
      rw [handle, stack]
      exact attach_of_ready around f.close
  | _ => exact plain nofun

/-- What the parser refuses in an end tag the reader refuses: there is always a place for the
element that the tag closes. -/
theorem read_of_refused {content : List Char} {m : Malformed} (sound : Sound a)
    (refused : a.closeElement content = .error m) :
    (ofAssembly a).read (.closing content) = .error m := by
  obtain ⟨offset, stack, root⟩ := a
  cases stack with
  | nil =>
      cases refused
      rfl
  | cons f fs =>
      have free : root = none := sound.resolve_left (List.cons_ne_nil f fs)
      by_cases same : f.name = Assembly.closingName content
      · have closed : Assembly.closeElement content ⟨offset, f :: fs, root⟩ = .ok _ :=
          Assembly.closeElement_iff.mpr ⟨f, fs, rfl, same, fun _ => free, rfl⟩
        rw [closed] at refused
        cases refused
      · have mismatched : Assembly.closeElement content ⟨offset, f :: fs, root⟩ =
            .error (.mismatched offset f.name (Assembly.closingName content)) := if_neg same
        rw [mismatched] at refused
        cases refused
        exact if_neg same

/-- The loop and the parser go in lockstep. -/
theorem step_eq (sound : Sound a) (t : Token) :
    step maxDepth (ofAssembly a) t = ((a.step maxDepth t).map ofAssembly).mapError .malformed := by
  rw [step, Assembly.step]
  cases taken : a.interpret maxDepth t with
  | ok b =>
      have moves : Assembly.Moves maxDepth a t b := Assembly.interpret_iff.mp taken
      have handled : handle maxDepth (ofAssembly a).assembly t = .ok b := handle_of_moves moves
      rw [read_of_moves moves, handled]
      rfl
  | error m =>
      have plain (other : ∀ content, t ≠ .closing content) :
          handle maxDepth (ofAssembly a).assembly t = .error (.malformed m) := by
        rw [handle_eq other, ofAssembly, taken]
        rfl
      cases t with
      | closing content =>
          rw [read_of_refused sound taken]
          rfl
      | _ =>
          rw [plain fun _ => Token.noConfusion]
          rfl

theorem sound_step (sound : Sound a) (taken : a.step maxDepth t = .ok b) : Sound b := by
  obtain ⟨c, moves, rfl⟩ := Assembly.step_iff.mp taken
  have kept : Sound c := sound_moves moves sound
  exact kept

theorem run_eq (sound : Sound a) (ts : List Token) :
    ts.foldlM (step maxDepth) (ofAssembly a) =
      ((ts.foldlM (Assembly.step maxDepth) a).map ofAssembly).mapError .malformed := by
  induction ts generalizing a with
  | nil => rfl
  | cons t ts ih =>
      rw [List.foldlM_cons, List.foldlM_cons, step_eq sound]
      cases taken : a.step maxDepth t with
      | error m => rfl
      | ok b => exact ih (sound_step sound taken)

theorem sound_run {ts : List Token} (sound : Sound a)
    (run : ts.foldlM (Assembly.step maxDepth) a = .ok b) : Sound b := by
  induction ts generalizing a with
  | nil =>
      cases run
      exact sound
  | cons t ts ih =>
      rw [List.foldlM_cons] at run
      cases taken : a.step maxDepth t with
      | error m =>
          rw [taken] at run
          cases run
      | ok next =>
          rw [taken] at run
          exact ih (sound_step sound taken) run

end

theorem sound_of_reached {limits : Limits} {text : String} {l : Loop}
    (reached : Reached limits text l) :
    l.opened = l.assembly.stack.map Frame.name ∧ Sound l.assembly := by
  obtain ⟨ts, -, run⟩ := reached
  have lockstep := @run_eq limits.maxDepth .start (.inl rfl) ts
  cases parsed : ts.foldlM (Assembly.step limits.maxDepth) .start with
  | error m =>
      rw [parsed] at lockstep
      cases run.symm.trans lockstep
  | ok a =>
      rw [parsed] at lockstep
      cases run.symm.trans lockstep
      exact ⟨rfl, sound_run (.inl rfl) parsed⟩

theorem ofScan_eq (maxDepth : Nat) (s : Scan) :
    ofScan maxDepth s = (Element.ofScan maxDepth s).mapError .malformed := by
  have lockstep : s.tokens.foldlM (step maxDepth) start = _ :=
    @run_eq maxDepth .start (.inl rfl) s.tokens
  rw [ofScan, Element.ofScan, lockstep]
  cases s.tokens.foldlM (Assembly.step maxDepth) .start with
  | error m => rfl
  | ok a => cases s.fault <;> rfl

theorem parse_eq (limits : Limits) (text : String) :
    parse limits text = (Element.parse limits text).mapError .malformed := by
  rw [parse, Element.parse, ofScan_eq]
  split <;> rfl

end Loop

namespace Element

/-- What a text is read as has its elements in the order of the tags of the text, as deep as the
tags stand and with their attributes in order under distinct keys, and there is one root. On any
text, whether it is read or not, the loop is never in a state with both a root and an open element.
So an end tag that gets past the reader always closes an element, a closed element always has a
place, and the loop is the parser. -/
theorem parse_in_order (limits : Limits) (text : String) :
    (∀ e, parse limits text = .ok e →
      (tokens text).flatMap Token.source = withoutMark text.toList ∧
      List.Forall₂ (fun start entry => start.depth = entry.1 ∧
          Tagged start.content entry.2.name.toList entry.2.attributes)
        (starts 0 (tokens text)) (listing 1 e) ∧
      ((starts 0 (tokens text)).map Start.depth).count 1 = 1) ∧
    (∀ l, Loop.Reached limits text l →
      l.opened = l.assembly.stack.map Frame.name ∧
        (l.assembly.stack = [] ∨ l.assembly.root = none)) ∧
    Loop.parse limits text = (parse limits text).mapError .malformed ∧
    Loop.parse limits text ≠ .error .nothingOpen ∧ Loop.parse limits text ≠ .error .noPlace := by
  refine ⟨?_, fun l reached => Loop.sound_of_reached reached, Loop.parse_eq limits text, ?_⟩
  · intro e read
    obtain ⟨-, -, whole, -⟩ := parse_eq_ok_iff.mp read
    have heads : List.Forall₂ Heads (starts 0 (tokens text)) (listing 1 e) := heads_of_parse read
    refine ⟨(Scan.written_of_ofText whole).1, heads.imp fun _ _ head => ?_, ?_⟩
    · exact ⟨head.depth, head.tagged⟩
    · rw [depths_of_heads heads]
      exact count_depth_listing 1 e
  · rw [Loop.parse_eq]
    cases parse limits text <;> exact ⟨nofun, nofun⟩

/-- An element with attributes, and in it an empty tag, a text and a pair of tags. -/
theorem parse_in_order_nested :
    let limits : Limits := { maxDepth := 2, maxBytes := 64 }
    let text := "<a k='1' l=\"2\"><b/>t<c></c></a>"
    (∃ e, parse limits text = .ok e ∧
      (listing 1 e).map (fun entry => (entry.1, entry.2.name)) = [(1, "a"), (2, "b"), (2, "c")] ∧
      List.Forall₂ (fun start entry => start.depth = entry.1 ∧
          Tagged start.content entry.2.name.toList entry.2.attributes)
        (starts 0 (tokens text)) (listing 1 e) ∧
      ((starts 0 (tokens text)).map Start.depth).count 1 = 1) ∧
    Loop.parse limits text ≠ .error .nothingOpen ∧ Loop.parse limits text ≠ .error .noPlace := by
  intro limits text
  have known : (parse limits text).toOption.map
      (fun e => (listing 1 e).map fun entry => (entry.1, entry.2.name)) =
        some [(1, "a"), (2, "b"), (2, "c")] := by decide +kernel
  obtain ⟨e, parsed, view⟩ := exists_of_view known
  obtain ⟨ordered, -, -, unreachable⟩ := parse_in_order limits text
  exact ⟨⟨e, parsed, view, (ordered e parsed).2⟩, unreachable⟩

end Element

end Terminology.Markup
