/-
  What a codec writes it reads, as a value for which it writes the same (`Codec.Settles`). That is the
  value there was, unless a free-form document in it has numbers that are not finite, which are not
  written. A codec keeps a value (`Codec.Keeps`) when the value settles to itself and the document
  written for it is well formed. The codecs of lists, maps and records do with what is made of values
  as the codecs of their parts do with the values. The fields of a record are read one after the other
  from pairs that hold at least what was written for them, so that a field added last does not touch
  those before it (`Fields.Settles`).
-/
import Mathlib.Data.List.Forall2
import Tradeflow.Proofs.Json.Finite
import Tradeflow.Record.Fields

namespace Tradeflow

namespace Assoc

variable {α : Type}

/-- With keys that occur once, each pair is found under its key. -/
theorem get?_of_mem {m : Assoc α} (h : m.keys.Nodup) {p : String × α} (hp : p ∈ m) :
    m.get? p.1 = some p.2 := by
  induction m with
  | nil => exact absurd hp List.not_mem_nil
  | cons q m ih =>
    obtain ⟨k, v⟩ := q
    obtain ⟨hfresh, hrest⟩ := List.nodup_cons.1 h
    rw [get?_cons]
    rcases List.mem_cons.1 hp with rfl | hp
    · exact if_pos rfl
    · have hmem : p.1 ∈ keys m := List.mem_map_of_mem hp
      have hne : k ≠ p.1 := fun heq => hfresh (heq ▸ hmem)
      rw [if_neg hne, ih hrest hp]

theorem has_of_mem_keys {m : Assoc α} {key : String} (h : key ∈ m.keys) : m.has key = true := by
  induction m with
  | nil => exact absurd h List.not_mem_nil
  | cons q m ih =>
    obtain ⟨k, v⟩ := q
    rw [has, get?_cons]
    split
    · rfl
    case isFalse hne =>
      rcases List.mem_cons.1 h with rfl | hmem
      · exact absurd rfl hne
      · exact ih hmem

theorem nodup_keys_set {m : Assoc α} (h : m.keys.Nodup) (key : String) (value : α) :
    (m.set key value).keys.Nodup := by
  by_cases hkey : m.has key = true
  · rwa [keys_set_of_has m key value hkey]
  · have hfresh : key ∉ m.keys := fun hmem => hkey (has_of_mem_keys hmem)
    rw [keys_set_of_not_has m key value (Bool.eq_false_iff.2 hkey)]
    exact h.append (List.nodup_singleton key) (List.disjoint_singleton.2 hfresh)

/-- However often values are updated, each key is there once. -/
theorem nodup_keys_foldl_update {β : Type} (items : List β) (key : β → String) (start : α)
    (f : β → α → α) {m : Assoc α} (h : m.keys.Nodup) :
    (items.foldl (fun m b => update m (key b) start (f b)) m).keys.Nodup := by
  induction items generalizing m with
  | nil => exact h
  | cons b items ih => exact ih (nodup_keys_set h _ _)

end Assoc

/-! ## Codecs -/

/-- What is written for `a` is read as `b`, for which the same is written. -/
structure Codec.Settles {α : Type} (c : Codec α) (a b : α) : Prop where
  read : c.read (c.write a) = .ok b
  write : c.write b = c.write a

/-- The document written for a value is well formed and is read as the value. -/
structure Codec.Keeps {α : Type} (c : Codec α) (a : α) : Prop extends c.Settles a a where
  wellFormed : Json.wellFormed (c.write a) = true

namespace Codec

variable {α : Type} {c : Codec α}

theorem text_settles (s : String) : text.Settles s s := ⟨rfl, rfl⟩

theorem int_settles (n : Int) : int.Settles n n := ⟨rfl, rfl⟩

theorem bool_settles (b : Bool) : bool.Settles b b := ⟨rfl, rfl⟩

theorem float_settles (x : Float) : float.Settles x x := ⟨rfl, rfl⟩

/-- A free-form object loses the numbers in it that are not finite. -/
theorem object_settles (m : Assoc Json) : object.Settles m (Json.nulledPairs m) where
  read := rfl
  write := congrArg Json.obj (Json.nulledPairs_nulledPairs m)

/-- Words are told apart by looking for the first that fits. -/
theorem oneOf_settles {kind : ProblemKind} {all : List α} {word : α → String} {a : α}
    (h : all.find? (word · == word a) = some a) : (oneOf kind all word).Settles a a where
  read := by simp only [oneOf, h]
  write := rfl

/-- Only nothing itself is read as nothing. -/
theorem read_optional {doc : Json} (h : doc ≠ .null) :
    (optional c).read doc = (c.read doc).map some := by
  cases doc with
  | null => exact absurd rfl h
  | _ => rfl

theorem optional_settles (hc : ∀ a, c.Settles a a) (hvalue : ∀ a, c.write a ≠ .null) :
    ∀ o, (optional c).Settles o o
  | none => ⟨rfl, rfl⟩
  | some a => by
    refine ⟨?_, rfl⟩
    show (optional c).read (c.write a) = .ok (some a)
    rw [read_optional (hvalue a), (hc a).read]
    rfl

theorem readItems_write {as bs : List α} (h : List.Forall₂ c.Settles as bs) (n : Nat) :
    readItems c.read n (as.map c.write) = .ok bs := by
  induction h generalizing n with
  | nil => rfl
  | cons hfirst _ ih =>
    rw [List.map_cons, readItems, hfirst.read, ih]
    rfl

theorem map_write {as bs : List α} (h : List.Forall₂ c.Settles as bs) :
    bs.map c.write = as.map c.write := by
  induction h with
  | nil => rfl
  | cons hfirst _ ih => rw [List.map_cons, List.map_cons, hfirst.write, ih]

theorem list_settles {as bs : List α} (h : List.Forall₂ c.Settles as bs) :
    (list c).Settles as bs where
  read := readItems_write h 0
  write := congrArg Json.arr (map_write h)

theorem list_settles_self {as : List α} (h : ∀ a ∈ as, c.Settles a a) : (list c).Settles as as :=
  list_settles (List.forall₂_same.2 h)

theorem list_settles_map {as : List α} {f : α → α} (h : ∀ a ∈ as, c.Settles a (f a)) :
    (list c).Settles as (as.map f) :=
  list_settles (List.forall₂_map_right_iff.2 (List.forall₂_same.2 h))

theorem readPairs_write {m : Assoc α} (h : ∀ p ∈ m, c.Settles p.2 p.2) :
    readPairs c.read (m.map fun p => (p.1, c.write p.2)) = .ok m := by
  induction m with
  | nil => rfl
  | cons p m ih =>
    obtain ⟨hp, hm⟩ := List.forall_mem_cons.1 h
    rw [List.map_cons, readPairs, hp.read, ih hm]
    rfl

theorem map_settles {m : Assoc α} (h : ∀ p ∈ m, c.Settles p.2 p.2) : (map c).Settles m m where
  read := readPairs_write h
  write := rfl

theorem text_keeps (s : String) : text.Keeps s := ⟨text_settles s, rfl⟩

theorem int_keeps (n : Int) : int.Keeps n := ⟨int_settles n, rfl⟩

theorem bool_keeps (b : Bool) : bool.Keeps b := ⟨bool_settles b, rfl⟩

theorem float_keeps {x : Float} (h : Double.isFinite x = true) : float.Keeps x :=
  ⟨float_settles x, by rw [float, Json.wellFormed, h]⟩

theorem object_keeps {m : Assoc Json} (h : Json.wellFormed (.obj m) = true) : object.Keeps m := by
  have hnulled : Json.nulledPairs m = m :=
    Json.nulledPairs_eq_self.2 (Json.allFinite_of_wellFormed h)
  have hsettles := object_settles m
  rw [hnulled] at hsettles
  refine ⟨hsettles, ?_⟩
  show Json.wellFormed (.obj (Json.nulledPairs m)) = true
  rwa [hnulled]

theorem oneOf_keeps {kind : ProblemKind} {all : List α} {word : α → String} {a : α}
    (h : all.find? (word · == word a) = some a) : (oneOf kind all word).Keeps a :=
  ⟨oneOf_settles h, rfl⟩

theorem list_keeps {as : List α} (h : ∀ a ∈ as, c.Keeps a) : (list c).Keeps as where
  toSettles := list_settles_self fun a ha => (h a ha).toSettles
  wellFormed := Json.wellFormed_arr.2 (List.forall_mem_map.2 fun a ha => (h a ha).wellFormed)

theorem map_keeps {m : Assoc α} (hkeys : m.keys.Nodup) (h : ∀ p ∈ m, c.Keeps p.2) :
    (map c).Keeps m where
  toSettles := map_settles fun p hp => (h p hp).toSettles
  wellFormed := by
    refine Json.wellFormed_obj.2 ⟨?_, List.forall_mem_map.2 fun p hp => (h p hp).wellFormed⟩
    rw [Assoc.keys, List.map_map]
    exact hkeys

end Codec

/-! ## Records -/

/-- Pairs that hold what the fields write for `r` are read as `b`, the part of `r'` that the fields
make, and the fields write the same for `r'`. -/
structure Fields.Settles {σ β : Type} (fs : Fields σ β) (r r' : σ) (b : β) : Prop where
  read : ∀ pairs : Assoc Json, (∀ p ∈ fs.write r, pairs.get? p.1 = some p.2) →
    fs.read pairs = .ok b
  write : fs.write r' = fs.write r
  keys : Assoc.keys (fs.write r) = fs.names.map (·.key)

/-- Of the fields of a record that settles to itself only well-formed values are written. -/
structure Fields.Keeps {σ β : Type} (fs : Fields σ β) (r : σ) (b : β) : Prop
    extends fs.Settles r r b where
  values : ∀ p ∈ fs.write r, Json.wellFormed p.2 = true

namespace Fields

variable {σ α β : Type}

theorem start_settles (r r' : σ) (b : β) : (start σ b).Settles r r' b where
  read _ _ := rfl
  write := rfl
  keys := rfl

theorem start_keeps (r : σ) (b : β) : (start σ b).Keeps r b where
  toSettles := start_settles r r b
  values _ hp := absurd hp List.not_mem_nil

variable {fs : Fields σ (α → β)} {r r' : σ} {f : α → β} {c : Codec α} {get : σ → α}

/-- One field more is read where its key is found. -/
theorem read_add {field : FieldName} {fallback : Option α} {pairs : Assoc Json} {doc : Json} {a : α}
    (hbefore : fs.read pairs = .ok f) (hfound : pairs.get? field.key = some doc)
    (ha : c.read doc = .ok a) : (fs.add field c fallback get).read pairs = .ok (f a) := by
  have hfield : readField field c fallback pairs = .ok a := by
    unfold readField find?
    rw [hfound]
    dsimp only
    rw [ha]
    rfl
  show Except.both (fun f a => f a) (fs.read pairs)
    (fun _ => readField field c fallback pairs) = .ok (f a)
  rw [hbefore, hfield]
  rfl

/-- What one field more writes. -/
theorem write_add (field : FieldName) (fallback : Option α) (r : σ) :
    (fs.add field c fallback get).write r = fs.write r ++ [(field.key, c.write (get r))] := rfl

/-- One field more, found under its key. -/
theorem Settles.add (h : fs.Settles r r' f) (field : FieldName) (hc : c.Settles (get r) (get r'))
    (fallback : Option α) : (fs.add field c fallback get).Settles r r' (f (get r')) where
  read pairs hpairs := by
    have hfound : pairs.get? field.key = some (c.write (get r)) :=
      hpairs (field.key, c.write (get r)) (List.mem_append_right _ (List.mem_singleton.2 rfl))
    exact read_add (h.read pairs fun p hp => hpairs p (List.mem_append_left _ hp)) hfound hc.read
  write := by rw [write_add, write_add, h.write, hc.write]
  keys := by
    show Assoc.keys (fs.write r ++ [(field.key, c.write (get r))]) =
      (fs.names ++ [field]).map (·.key)
    rw [Assoc.keys, List.map_append, List.map_append, ← h.keys]
    rfl

theorem Settles.req (h : fs.Settles r r' f) (field : FieldName) (hc : c.Settles (get r) (get r')) :
    (fs.req field c get).Settles r r' (f (get r')) := h.add field hc none

theorem Settles.opt (h : fs.Settles r r' f) (field : FieldName) (fallback : α)
    (hc : c.Settles (get r) (get r')) :
    (fs.opt field c fallback get).Settles r r' (f (get r')) := h.add field hc (some fallback)

theorem Keeps.add (h : fs.Keeps r f) (field : FieldName) (hc : c.Keeps (get r))
    (fallback : Option α) : (fs.add field c fallback get).Keeps r (f (get r)) where
  toSettles := h.toSettles.add field hc.toSettles fallback
  values p hp := by
    rcases List.mem_append.1 hp with hp | hp
    · exact h.values p hp
    · rw [List.mem_singleton.1 hp]
      exact hc.wellFormed

theorem Keeps.req (h : fs.Keeps r f) (field : FieldName) (hc : c.Keeps (get r)) :
    (fs.req field c get).Keeps r (f (get r)) := h.add field hc none

theorem Keeps.opt (h : fs.Keeps r f) (field : FieldName) (fallback : α) (hc : c.Keeps (get r)) :
    (fs.opt field c fallback get).Keeps r (f (get r)) := h.add field hc (some fallback)

end Fields

namespace Codec

variable {σ : Type} {kind : RecordKind σ} {fs : Fields σ σ} {r r' : σ}

/-- What is written for a record whose keys are different is read as a record, unless the rule of its
kind refuses that one or the kind refuses keys. -/
theorem record_settles (h : fs.Settles r r' r') (hkeys : (fs.names.map (·.key)).Nodup)
    (hopen : kind.closed = false) (hcheck : kind.check r' = []) : (record kind fs).Settles r r' where
  read := by
    have hnodup : (Assoc.keys (fs.write r)).Nodup := by rwa [h.keys]
    show fs.readRecord kind (fs.write r) = .ok r'
    rw [Fields.readRecord, hopen, h.read (fs.write r) fun p hp => Assoc.get?_of_mem hnodup hp]
    dsimp only
    rw [hcheck]
    rfl
  write := congrArg Json.obj h.write

theorem record_keeps (h : fs.Keeps r r) (hkeys : (fs.names.map (·.key)).Nodup)
    (hopen : kind.closed = false) (hcheck : kind.check r = []) : (record kind fs).Keeps r where
  toSettles := record_settles h.toSettles hkeys hopen hcheck
  wellFormed := Json.wellFormed_obj.2 ⟨by rwa [h.keys], h.values⟩

end Codec

end Tradeflow
