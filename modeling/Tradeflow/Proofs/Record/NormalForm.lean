/-
  Writing brings documents into a normal form. Reading is lenient, so many documents are read as one
  value; the one that is written for a value is settled when it is read again, as a value for which the
  same is written (`Codec.Settles`).
  `Codec.normalForm`: if a codec settles every value, it accepts what it accepts again as it writes it,
  for the settled value; writing that changes nothing, and what is written so are the values that
  settle alike.
-/
import Tradeflow.Proofs.Record.Lossless

namespace Tradeflow

/-- A document that is the settled form of a value: it is read as the settled value, written as it
stands, and what the documents read as values that settle alike are brought into, but no others. -/
structure Codec.NormalForm {α : Type} (c : Codec α) (settle : α → α) (a : α) (wire : Json) : Prop where
  read : c.read wire = .ok (settle a)
  renew : c.renew wire = .ok wire
  only : ∀ doc, c.renew doc = .ok wire ↔ ∃ b, c.read doc = .ok b ∧ settle b = settle a

namespace Codec

variable {α : Type} {c : Codec α} {settle : α → α} {doc wire : Json}

theorem renew_eq_ok : c.renew doc = .ok wire ↔ ∃ a, c.read doc = .ok a ∧ c.write a = wire := by
  unfold renew
  cases c.read doc with
  | error e => exact ⟨nofun, fun ⟨_, hread, _⟩ => nomatch hread⟩
  | ok a =>
    constructor
    · exact fun h => ⟨a, rfl, Except.ok.inj h⟩
    · rintro ⟨b, hread, rfl⟩
      rw [Except.ok.inj hread]
      rfl

/-- The same is written for values exactly if they settle alike. -/
theorem write_eq_write (hc : ∀ a, c.Settles a (settle a)) {a b : α} :
    c.write b = c.write a ↔ settle b = settle a := by
  constructor
  · intro h
    have hread := (hc b).read
    rw [h, (hc a).read] at hread
    exact (Except.ok.inj hread).symm
  · intro h
    rw [← (hc b).write, h, (hc a).write]

theorem normalForm_write (hc : ∀ a, c.Settles a (settle a)) (a : α) :
    c.NormalForm settle a (c.write a) where
  read := (hc a).read
  renew := renew_eq_ok.2 ⟨settle a, (hc a).read, (hc a).write⟩
  only doc := by
    constructor
    · intro h
      obtain ⟨b, hread, hwrite⟩ := renew_eq_ok.1 h
      exact ⟨b, hread, (write_eq_write hc).1 hwrite⟩
    · rintro ⟨b, hread, hsettle⟩
      exact renew_eq_ok.2 ⟨b, hread, (write_eq_write hc).2 hsettle⟩

/-- A document that is accepted is brought into the normal form of the value it is read as. -/
theorem normalForm (hc : ∀ a, c.Settles a (settle a)) (h : c.renew doc = .ok wire) :
    ∃ a, c.read doc = .ok a ∧ c.NormalForm settle a wire := by
  obtain ⟨a, hread, rfl⟩ := renew_eq_ok.1 h
  exact ⟨a, hread, normalForm_write hc a⟩

end Codec

end Tradeflow
