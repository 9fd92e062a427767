/-
  How the reading of a document ends: with a value, with problems, or with a fault that is none and so
  escapes (`Except.Ends`). What is known of the values and of the fault that escapes is kept by the
  ways in which readings are put together; a reading in two parts lets the fault of the first part
  escape before that of the second one (`Except.Ends.both`), so a record escapes with the first field
  that does (`Fields.Ends.add`, `Codec.record_ends`). Only dates escape (`Codec.date_ends`).
-/
import Tradeflow.Record.Fields

namespace Tradeflow

/-- A reading ends with a value of some kind, with problems, or with the fault that escapes. -/
inductive Except.Ends {α : Type} (P : α → Prop) : Option Fault → Except Fault α → Prop
  | value {a : α} (h : P a) : Ends P none (.ok a)
  | problems (p : Problem) (ps : List Problem) : Ends P none (.error (.rejected (p :: ps)))
  | fault {f : Fault} (h : ∀ ps, f ≠ .rejected ps) : Ends P (some f) (.error f)

namespace Except.Ends

variable {α β γ : Type} {P Q : α → Prop} {escape : Option Fault} {x : Except Fault α}

theorem problem (kind : ProblemKind) : Ends P none (.error (Fault.problem kind)) := .problems _ []

theorem mono (h : Ends P escape x) (himp : ∀ a, P a → Q a) : Ends Q escape x := by
  cases h with
  | value ha => exact .value (himp _ ha)
  | problems p ps => exact .problems p ps
  | fault hf => exact .fault hf

theorem map {Q : β → Prop} (h : Ends P escape x) (f : α → β) (himp : ∀ a, P a → Q (f a)) :
    Ends Q escape (x.map f) := by
  cases h with
  | value ha => exact .value (himp _ ha)
  | problems p ps => exact .problems p ps
  | fault hf => exact .fault hf

/-- Seen from further out, problems are problems and other faults the same. -/
theorem under (h : Ends P escape x) (step : Place) :
    Ends P escape (x.mapError (Fault.under step)) := by
  cases h with
  | value ha => exact .value ha
  | problems p ps => exact .problems _ _
  | @fault f hf =>
    have hsame : f.under step = f := by
      unfold Fault.under
      split
      · exact absurd rfl (hf _)
      · rfl
    show Ends P (some f) (.error (f.under step))
    rw [hsame]
    exact .fault hf

/-- Of two parts, the first fault that escapes does. -/
theorem both {Q : β → Prop} {escape' : Option Fault} {y : Unit → Except Fault β} (f : α → β → γ)
    (hx : Ends P escape x) (hy : Ends Q escape' (y ())) :
    Ends (fun c => ∃ a b, P a ∧ Q b ∧ c = f a b) (escape.or escape') (Except.both f x y) := by
  unfold Except.both
  cases hx with
  | value ha => exact hy.map _ fun b hb => ⟨_, b, ha, hb, rfl⟩
  | problems p ps =>
    dsimp only [Option.none_or]
    generalize y () = z at hy ⊢
    cases hy with
    | value hb => exact .problems p ps
    | problems q qs => exact .problems p (ps ++ q :: qs)
    | fault hf =>
      split
      case h_1 => contradiction
      case h_2 heq => exact absurd (Except.error.inj heq) (hf _)
      case h_3 heq =>
        cases heq
        exact .fault hf
  | fault hf =>
    split
    case h_1 => contradiction
    case h_2 heq => exact absurd (Except.error.inj heq) (hf _)
    case h_3 heq =>
      cases heq
      exact .fault hf

end Except.Ends

/-! ## Codecs -/

/-- How a codec reads documents: what is known of the values, and which documents it lets escape. -/
def Codec.Ends {α : Type} (c : Codec α) (P : Json → α → Prop) (escape? : Json → Option Fault) : Prop :=
  ∀ doc, Except.Ends (P doc) (escape? doc) (c.read doc)

/-- A codec that lets nothing escape. -/
abbrev Codec.Refuses {α : Type} (c : Codec α) (P : Json → α → Prop) : Prop := c.Ends P fun _ => none

namespace Codec

variable {α : Type}

theorem readFloat_refuses (doc : Json) : Except.Ends (fun _ => True) none (readFloat doc) := by
  unfold readFloat
  split
  · exact .value trivial
  · dsimp only
    split
    · exact .value trivial
    · exact .problem _
  · exact .value trivial
  · split
    · exact .value trivial
    · exact .problem _
  · exact .problem _

theorem positiveFloat_refuses : positiveFloat.Refuses fun _ x => 0 < x := by
  intro doc
  have hread := readFloat_refuses doc
  unfold positiveFloat
  dsimp only
  generalize readFloat doc = x at hread ⊢
  cases hread with
  | value =>
    dsimp only
    split
    case isTrue hpos => exact .value hpos
    case isFalse => exact .problem _
  | problems p ps => exact .problems p ps

theorem int_refuses : int.Refuses fun _ _ => True := by
  intro doc
  show Except.Ends _ none (readInt doc)
  unfold readInt
  split
  · exact .value trivial
  · exact .value trivial
  · split
    · exact .problem _
    · split
      · exact .problem _
      · split
        · exact .value trivial
        · exact .problem _
  · split
    · exact .value trivial
    · exact .problem _
  · exact .problem _

theorem oneOf_refuses (kind : ProblemKind) (all : List α) (word : α → String) :
    (oneOf kind all word).Refuses fun _ _ => True := by
  intro doc
  cases doc with
  | str s =>
    unfold oneOf
    dsimp only
    split
    · exact .value trivial
    · exact .problem _
  | null | bool | int | num | arr | obj => exact .problem _

theorem optional_refuses {c : Codec α} (h : c.Refuses fun _ _ => True) :
    (optional c).Refuses fun _ _ => True := by
  intro doc
  cases doc with
  | null => exact .value trivial
  | bool | int | num | str | arr | obj => exact (h _).map _ fun _ _ => trivial

/-- The fault with which a document escapes that is to be a date: anything but text, and text that
leaves the years there are when its offset is taken off. -/
def dateFault? : Json → Option Fault
  | .str s =>
    match Instant.ofText s with
    | .error .outOfRange => some (.date .outOfRange)
    | _ => none
  | doc => some (.notADate doc.kindName)

theorem date_ends : date.Ends (fun doc t => ∃ s, doc = .str s ∧ Instant.ofText s = .ok t) dateFault? := by
  intro doc
  cases doc with
  | str s =>
    unfold date dateFault?
    dsimp only
    cases htext : Instant.ofText s with
    | ok t => exact .value ⟨s, rfl, htext⟩
    | error e =>
      cases e with
      | outOfRange => exact .fault nofun
      | malformed | yearRange | monthRange | dayRange | hourRange | minuteRange | secondRange
        | offsetRange => exact .problem _
  | null | bool | int | num | arr | obj => exact .fault nofun

end Codec

/-! ## Records -/

/-- How the fields of a record are read from pairs. -/
def Fields.Ends {σ β : Type} (fs : Fields σ β) (P : Assoc Json → β → Prop)
    (escape? : Assoc Json → Option Fault) : Prop :=
  ∀ pairs, Except.Ends (P pairs) (escape? pairs) (fs.read pairs)

namespace Fields

variable {σ α β : Type}

/-- What is known of a field that was read: it was found, or it is the default. -/
def Found (field : FieldName) (fallback : Option α) (P : Json → α → Prop) (pairs : Assoc Json)
    (a : α) : Prop :=
  (∃ key doc, find? pairs field = some (key, doc) ∧ P doc a) ∨
    find? pairs field = none ∧ fallback = some a

/-- The fault with which a field escapes. -/
def escapeAt (field : FieldName) (escape? : Json → Option Fault) (pairs : Assoc Json) :
    Option Fault :=
  (find? pairs field).bind fun found => escape? found.2

theorem readField_ends {c : Codec α} {P : Json → α → Prop} {escape? : Json → Option Fault}
    (h : c.Ends P escape?) (field : FieldName) (fallback : Option α) (pairs : Assoc Json) :
    Except.Ends (Found field fallback P pairs) (escapeAt field escape? pairs)
      (readField field c fallback pairs) := by
  unfold readField escapeAt Found
  cases hfind : find? pairs field with
  | some found =>
    obtain ⟨key, doc⟩ := found
    exact ((h doc).under (.key key)).mono fun a ha => .inl ⟨key, doc, rfl, ha⟩
  | none =>
    cases fallback with
    | some a => exact .value (.inr ⟨rfl, rfl⟩)
    | none => exact .problems _ []

theorem start_ends (b : β) : (start σ b).Ends (fun _ f => f = b) fun _ => none := fun _ => .value rfl

/-- Where nothing escapes, no field does. -/
@[simp]
theorem escapeAt_none (field : FieldName) (pairs : Assoc Json) :
    escapeAt field (fun _ => none) pairs = none := Option.bind_fun_none _

variable {fs : Fields σ (α → β)} {P : Assoc Json → (α → β) → Prop} {c : Codec α}
  {Q : Json → α → Prop} {before? : Assoc Json → Option Fault} {escape? : Json → Option Fault}
  {get : σ → α}

/-- One field more escapes after those before it. -/
theorem Ends.add (h : fs.Ends P before?) (field : FieldName) (hc : c.Ends Q escape?)
    (fallback : Option α) :
    (fs.add field c fallback get).Ends
      (fun pairs b => ∃ f a, P pairs f ∧ Found field fallback Q pairs a ∧ b = f a)
      fun pairs => (before? pairs).or (escapeAt field escape? pairs) := by
  intro pairs
  have hfield := readField_ends hc field fallback pairs
  show Except.Ends _ _ (Except.both (fun f a => f a) (fs.read pairs) fun _ =>
    readField field c fallback pairs)
  exact (h pairs).both _ hfield

theorem Ends.req (h : fs.Ends P before?) (field : FieldName) (hc : c.Ends Q escape?) :
    (fs.req field c get).Ends
      (fun pairs b => ∃ f a, P pairs f ∧ Found field none Q pairs a ∧ b = f a)
      fun pairs => (before? pairs).or (escapeAt field escape? pairs) := h.add field hc none

/-- A field with a default that lets nothing escape. -/
theorem Ends.opt (h : fs.Ends P before?) (field : FieldName) (fallback : α) (hc : c.Refuses Q) :
    (fs.opt field c fallback get).Ends
      (fun pairs b => ∃ f a, P pairs f ∧ Found field (some fallback) Q pairs a ∧ b = f a)
      before? := by
  intro pairs
  have hadd : Except.Ends _ _ ((fs.add field c (some fallback) get).read pairs) :=
    h.add field hc (some fallback) pairs
  dsimp only at hadd ⊢
  rwa [escapeAt_none, Option.or_none] at hadd

end Fields

/-- A record escapes as its fields do; its own rule and keys that it refuses are problems. -/
theorem Codec.record_ends {σ : Type} {kind : RecordKind σ} {fs : Fields σ σ}
    {P : Assoc Json → σ → Prop} {escape? : Assoc Json → Option Fault} (h : fs.Ends P escape?) :
    (record kind fs).Ends (fun doc r => ∃ pairs, doc = .obj pairs ∧ P pairs r ∧ kind.check r = [])
      fun doc => match doc with
        | .obj pairs => escape? pairs
        | _ => none := by
  intro doc
  cases doc with
  | obj pairs =>
    show Except.Ends _ (escape? pairs) (fs.readRecord kind pairs)
    have hread := h pairs
    unfold Fields.readRecord
    dsimp only
    generalize List.map _ (if kind.closed = true then _ else _) = extra
    generalize fs.read pairs = x, escape? pairs = escape at hread ⊢
    cases hread with
    | value hr =>
      cases extra with
      | nil =>
        dsimp only
        split
        · contradiction
        · split
          case h_1 hcheck => exact .value ⟨pairs, rfl, hr, hcheck⟩
          case h_2 p ps hcheck => exact .problems p ps
      | cons p ps => exact .problems p ps
    | problems p ps => exact .problems p _
    | fault hf =>
      split
      case h_1 heq => exact absurd (Except.error.inj heq) (hf _)
      case h_2 heq =>
        cases heq
        exact .fault hf
      case h_3 => contradiction
  | null | bool | int | num | str | arr => exact .problem _

end Tradeflow
