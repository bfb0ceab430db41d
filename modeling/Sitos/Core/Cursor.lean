import Mathlib

/-!
# Cursors over memory

A reader moves an offset through an array.  Here every addition to the offset is checked against
the width of the machine and every access against the bounds of the array, so that a reader which
never faults is one whose arithmetic never wraps and which never leaves the array.

Such a reader follows a function on the rest of the array when both reject together and otherwise
return the same value and stop at the same place.
-/

namespace Sitos.Cursor

/-- How an access goes wrong. -/
inductive Fault where
  | wrapped
  | outside
  deriving DecidableEq, Repr

/-- A computation that may reject its input, and may fault. -/
abbrev Checked := OptionT (Except Fault)

def fault {β : Type} (reason : Fault) : Checked β := OptionT.mk (.error reason)

def reject {β : Type} : Checked β := OptionT.mk (.ok none)

/-- An array: no object is larger than the largest pointer difference. -/
structure Span (α : Type) where
  data : List α
  length_lt : data.length < 2 ^ 63

variable {α β γ : Type}

def Span.size (span : Span α) : ℕ := span.data.length

/-- A sum of two `size_t`. -/
def advance (offset count : ℕ) : Checked ℕ :=
  if offset + count < 2 ^ 64 then pure (offset + count) else fault .wrapped

def Span.at (span : Span α) (index : ℕ) : Checked α :=
  match span.data[index]? with
  | some value => pure value
  | none => fault .outside

/-- The elements from an offset on, as many as are asked for. -/
def Span.subspan (span : Span α) (offset count : ℕ) : Checked (List α) :=
  if offset ≤ span.size ∧ count ≤ span.size - offset then
    pure ((span.data.drop offset).take count)
  else fault .outside

/-- `substr`: at most as many elements as are asked for, and no offset past the end. -/
def Span.substr (span : Span α) (offset count : ℕ) : Checked (List α) :=
  if offset ≤ span.size then pure ((span.data.drop offset).take count) else fault .outside

/-- `find`: where an element stands first, from an offset on. -/
def Span.find [DecidableEq α] (span : Span α) (value : α) (offset : ℕ) : Option ℕ :=
  ((span.data.drop offset).idxOf? value).map (offset + ·)

/-- `count` accesses one after the other. -/
def Span.collect (span : Span α) (offset : ℕ) : ℕ → Checked (List α)
  | 0 => pure []
  | count + 1 => do
      let value ← span.at offset
      let values ← span.collect (offset + 1) count
      pure (value :: values)

/-- Stores to consecutive elements. -/
def Span.overwrite (span : Span α) (offset : ℕ) (values : List α) : Checked (Span α) :=
  if hfits : offset + values.length ≤ span.data.length then
    pure
      { data := span.data.take offset ++ values ++ span.data.drop (offset + values.length)
        length_lt := by
          have hlength := span.length_lt
          rw [List.length_append, List.length_append, List.length_take, List.length_drop]
          omega }
  else fault .outside

/-- A store to one element. -/
def Span.write (span : Span α) (index : ℕ) (value : α) : Checked (Span α) :=
  if index < span.data.length then
    pure ⟨span.data.set index value, by rw [List.length_set]; exact span.length_lt⟩
  else fault .outside

/-! ## Checked steps that succeed -/

theorem advance_eq {offset count : ℕ} (hfits : offset + count < 2 ^ 64) :
    advance offset count = pure (offset + count) :=
  if_pos hfits

theorem Span.at_eq {span : Span α} {index : ℕ} {value : α} (hvalue : span.data[index]? = some value) :
    span.at index = pure value := by
  rw [Span.at, hvalue]

theorem Span.subspan_eq {span : Span α} {offset count : ℕ} (hoffset : offset ≤ span.size)
    (hcount : count ≤ span.size - offset) :
    span.subspan offset count = pure ((span.data.drop offset).take count) :=
  if_pos ⟨hoffset, hcount⟩

theorem Span.substr_eq {span : Span α} {offset count : ℕ} (hoffset : offset ≤ span.size) :
    span.substr offset count = pure ((span.data.drop offset).take count) :=
  if_pos hoffset

theorem Span.collect_eq {span : Span α} {offset count : ℕ} (hfits : offset + count ≤ span.size) :
    span.collect offset count = pure ((span.data.drop offset).take count) := by
  induction count generalizing offset with
  | zero => simp [Span.collect]
  | succ count ih =>
      have hlt : offset < span.data.length := by
        rw [Span.size] at hfits
        omega
      have hvalue : span.data[offset]? = some span.data[offset] := List.getElem?_eq_getElem hlt
      have hrest := ih (by omega : offset + 1 + count ≤ span.size)
      rw [Span.collect, Span.at_eq hvalue, pure_bind, hrest, pure_bind, List.drop_eq_getElem_cons hlt,
        List.take_succ_cons]

theorem Span.overwrite_eq {span : Span α} {offset : ℕ} {values : List α}
    (hfits : offset + values.length ≤ span.data.length) :
    ∃ span', span.overwrite offset values = pure span' ∧ span'.data =
      span.data.take offset ++ values ++ span.data.drop (offset + values.length) := by
  rw [Span.overwrite, dif_pos hfits]
  exact ⟨_, rfl, rfl⟩

theorem Span.write_eq {span : Span α} {index : ℕ} (value : α) (hindex : index < span.data.length) :
    ∃ span', span.write index value = pure span' ∧ span'.data = span.data.set index value := by
  rw [Span.write, if_pos hindex]
  exact ⟨_, rfl, rfl⟩

/-! ## Following a function on the rest -/

/-- The reader rejects when the model does, and otherwise returns what the model returns and stops
where the rest begins. -/
def Follows (span : Span α) (reader : Checked (β × ℕ)) : Option (β × List α) → Prop
  | none => reader = reject
  | some (value, rest) =>
      ∃ offset ≤ span.size, reader = pure (value, offset) ∧ rest = span.data.drop offset

variable {span : Span α}

theorem follows_reject : Follows span (reject : Checked (β × ℕ)) none := rfl

theorem follows_pure {value : β} {offset : ℕ} (hoffset : offset ≤ span.size) :
    Follows span (pure (value, offset)) (some (value, span.data.drop offset)) :=
  ⟨offset, hoffset, rfl, rfl⟩

theorem reject_bind (next : β → Checked γ) : (reject >>= next) = reject := rfl

/-- What a reader that follows a model returns. -/
theorem Follows.outcome {reader : Checked (β × ℕ)} {model : Option (β × List α)}
    (hreader : Follows span reader model) :
    (model = none ∧ reader = reject) ∨
    ∃ value, ∃ offset ≤ span.size, model = some (value, span.data.drop offset) ∧
      reader = pure (value, offset) := by
  cases model with
  | none => exact .inl ⟨rfl, hreader⟩
  | some pair =>
      obtain ⟨value, rest⟩ := pair
      obtain ⟨offset, hoffset, hpure, hrest⟩ := hreader
      exact .inr ⟨value, offset, hoffset, by rw [hrest], hpure⟩

theorem Follows.bind {reader : Checked (β × ℕ)} {model : Option (β × List α)}
    {next : β × ℕ → Checked (γ × ℕ)} {nextModel : β × List α → Option (γ × List α)}
    (hreader : Follows span reader model)
    (hnext : ∀ value offset, offset ≤ span.size →
      Follows span (next (value, offset)) (nextModel (value, span.data.drop offset))) :
    Follows span (reader >>= next) (model >>= nextModel) := by
  rcases hreader.outcome with ⟨hmodel, hreject⟩ | ⟨value, offset, hoffset, hmodel, hpure⟩
  · rw [hmodel, hreject, reject_bind]
    exact follows_reject
  · rw [hmodel, hpure, pure_bind]
    exact hnext value offset hoffset

/-- What a reader that takes a token off returns. -/
theorem Follows.token {reader : Checked (Unit × ℕ)} {model : Option (List α)}
    (hreader : Follows span reader (model.map (Prod.mk ()))) :
    (model = none ∧ reader = reject) ∨
    ∃ offset ≤ span.size, model = some (span.data.drop offset) ∧ reader = pure ((), offset) := by
  rcases hreader.outcome with ⟨hmodel, hreject⟩ | ⟨_, offset, hoffset, hmodel, hpure⟩
  · exact .inl ⟨Option.map_eq_none_iff.mp hmodel, hreject⟩
  · obtain ⟨rest, hrest, hpair⟩ := Option.map_eq_some_iff.mp hmodel
    obtain ⟨-, rfl⟩ := Prod.mk.inj hpair
    exact .inr ⟨offset, hoffset, hrest, hpure⟩

/-- What a reader does, whether or not it rejects. -/
def attempt (reader : Checked β) : Checked (Option β) := OptionT.mk (reader.run.map some)

theorem attempt_reject : attempt (reject : Checked β) = pure none := rfl

theorem attempt_pure (value : β) : attempt (pure value) = pure (some value) := rfl

/-- A reader that has to end where the array ends. -/
theorem Follows.whole {reader : Checked (β × ℕ)} {model : Option (β × List α)}
    (hreader : Follows span reader model) :
    (reader >>= fun pair => if pair.2 ≠ span.size then reject else pure pair.1) =
      (model.bind fun pair => if pair.2.isEmpty then some pair.1 else none).elim reject pure := by
  rcases hreader.outcome with ⟨hmodel, hreject⟩ | ⟨value, offset, hoffset, hmodel, hpure⟩
  · rw [hmodel, hreject]
    rfl
  · rw [hmodel, hpure, pure_bind, Option.bind_some]
    simp only [List.isEmpty_iff, List.drop_eq_nil_iff]
    rw [show span.data.length = span.size from rfl]
    by_cases hend : offset = span.size
    · rw [if_neg (not_not.mpr hend), if_pos hend.ge]
      rfl
    · rw [if_pos hend, if_neg fun hle => hend (le_antisymm hoffset hle)]
      rfl

/-- Another value for the same elements. -/
theorem Follows.map {reader : Checked (β × ℕ)} {model : Option (β × List α)} (value : β → γ)
    (hreader : Follows span reader model) :
    Follows span (reader >>= fun pair => pure (value pair.1, pair.2))
      (model.map fun pair => (value pair.1, pair.2)) := by
  rw [Option.map_eq_bind]
  exact hreader.bind fun _ _ hoffset => follows_pure hoffset

theorem Follows.of_eq {reader reader' : Checked (β × ℕ)} {model model' : Option (β × List α)}
    (hfollows : Follows span reader model) (hreader : reader' = reader) (hmodel : model' = model) :
    Follows span reader' model' := by
  rw [hreader, hmodel]
  exact hfollows

end Sitos.Cursor
