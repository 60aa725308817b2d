import CodeAgent.Proofs.Json.Rendering
import CodeAgent.Record

/-! Reading records back: from an object with its keys in order, each field gives what its own value
gives. A record that is read at all has all its parts. -/
namespace CodeAgent.Checked
open CodeAgent.Json
variable {α β : Type}

@[simp]
theorem map_ok (f : α → β) (a : α) : f <$> ok a = ok (f a) := rfl

@[simp]
theorem seq_ok (f : α → β) (a : α) : ok f <*> ok a = ok (f a) := rfl

@[simp]
theorem inside_ok (step : Json) (a : α) : inside step (ok a) = ok a := rfl

theorem eq_ok_of_seq {f : Checked (α → β)} {c : Checked α} {b : β} (done : f <*> c = ok b) :
    ∃ g a, f = ok g ∧ c = ok a ∧ g a = b := by
  obtain ⟨f⟩ := f
  obtain ⟨c⟩ := c
  cases f with
  | error is => cases c <;> cases done
  | ok g =>
    cases c with
    | error js => cases done
    | ok a =>
      cases done
      exact ⟨g, a, rfl, rfl, rfl⟩

theorem eq_ok_of_map {f : α → β} {c : Checked α} {b : β} (done : f <$> c = ok b) : ∃ a, c = ok a ∧ f a = b := by
  obtain ⟨g, a, same, read, made⟩ := eq_ok_of_seq done
  cases same
  exact ⟨a, read, made⟩

/-- What holds of all values that a reader's parts come to holds of all that it comes to. -/
theorem forall_of_seq {f : Checked (α → β)} {c : Checked α} {P : β → Prop}
    (onto : ∀ g, f = ok g → ∀ a, c = ok a → P (g a)) : ∀ b, f <*> c = ok b → P b := by
  intro b done
  obtain ⟨g, a, first, second, rfl⟩ := eq_ok_of_seq done
  exact onto g first a second

theorem forall_of_map {f : α → β} {c : Checked α} {P : β → Prop} (onto : ∀ a, c = ok a → P (f a)) :
    ∀ b, f <$> c = ok b → P b := by
  intro b done
  obtain ⟨a, read, rfl⟩ := eq_ok_of_map done
  exact onto a read

theorem eq_ok_of_inside {step : Json} {c : Checked α} {a : α} (done : inside step c = ok a) : c = ok a := by
  obtain ⟨c⟩ := c
  cases c with
  | error is => cases done
  | ok b => exact done

theorem eq_ok_of_fieldOr {default : α} {fields : Fields} {key : String} {read : Json → Checked α} {a : α}
    (done : fieldOr default fields key read = ok a) :
    OrderedMap.get? fields key = none ∧ a = default ∨ ∃ v, OrderedMap.get? fields key = some v ∧ read v = ok a := by
  unfold fieldOr at done
  split at done
  · next v there => exact .inr ⟨v, there, eq_ok_of_inside done⟩
  · next missing =>
    cases done
    exact .inl ⟨missing, rfl⟩

section isOk
variable {f : Checked (α → β)} {c : Checked α}

theorem isOk_seq : (f <*> c).result.isOk = (f.result.isOk && c.result.isOk) := by
  obtain ⟨f⟩ := f
  obtain ⟨c⟩ := c
  cases f <;> cases c <;> rfl

theorem isOk_map (g : α → β) : (g <$> c).result.isOk = c.result.isOk := isOk_seq

theorem exists_eq_ok : c.result.isOk = true ↔ ∃ a, c = ok a := by
  obtain ⟨c⟩ := c
  cases c with
  | error reasons => exact ⟨nofun, nofun⟩
  | ok a => exact ⟨fun _ => ⟨a, rfl⟩, fun _ => rfl⟩

theorem fieldOr_congr {fields fields' : Fields} {key : String} (default : α) (read : Json → Checked α)
    (same : OrderedMap.get? fields key = OrderedMap.get? fields' key) :
    fieldOr default fields key read = fieldOr default fields' key read := by
  rw [fieldOr, fieldOr, same]

theorem fieldOr_of_missing {fields : Fields} {key : String} (default : α) (read : Json → Checked α)
    (missing : OrderedMap.get? fields key = none) : fieldOr default fields key read = ok default := by
  rw [fieldOr, missing]

end isOk

theorem keys_of_members {read : Json → Checked α} {fields : Fields} {m : OrderedMap α}
    (done : members read fields = ok m) : OrderedMap.keys m = OrderedMap.keys fields := by
  induction fields generalizing m with
  | nil =>
    cases done
    rfl
  | cons p fields ih =>
    rw [members] at done
    obtain ⟨g, m', first, rest, rfl⟩ := eq_ok_of_seq done
    obtain ⟨a, -, rfl⟩ := eq_ok_of_map first
    exact congrArg (p.1 :: ·) (ih rest)

/-- A map has the names of the object that it is read from. -/
theorem keys_of_map {read : Json → Checked α} {v : Json} {m : OrderedMap α} (done : map read v = ok m) :
    ∃ fields, v = .obj fields ∧ OrderedMap.keys m = OrderedMap.keys fields := by
  unfold map at done
  split at done
  · next fields => exact ⟨fields, rfl, keys_of_members done⟩
  · cases done

section fields
variable {fields : Fields} {key : String} {v : Json} {read : Json → Checked α} {a : α}

theorem field_sorted (there : OrderedMap.get? fields key = some v) (gives : read (sorted v) = ok a) :
    field (OrderedMap.inOrder (sortedFields fields)) key read = ok a := by
  rw [field, get?_sorted, there, Option.map_some]
  simp [gives]

theorem fieldOr_sorted (default : α) (there : OrderedMap.get? fields key = some v)
    (gives : read (sorted v) = ok a) :
    fieldOr default (OrderedMap.inOrder (sortedFields fields)) key read = ok a := by
  rw [fieldOr, get?_sorted, there, Option.map_some]
  simp [gives]

end fields

/-- Elements are read back if each of them is. -/
theorem elements_map {toJson : α → Json} {read : Json → Checked α} {as : List α}
    (gives : ∀ a ∈ as, read (toJson a) = ok a) (position : Nat) :
    elements read position (as.map toJson) = ok as := by
  induction as generalizing position with
  | nil => rfl
  | cons a as ih =>
    rw [List.map_cons, elements, gives a List.mem_cons_self,
      ih (fun b hb => gives b (List.mem_cons_of_mem _ hb)) (position + 1)]
    rfl

/-- Members are read back if the value of each of them is. -/
theorem members_map {toJson : α → Json} {read : Json → Checked α} {m : OrderedMap α}
    (gives : ∀ p ∈ m, read (toJson p.2) = ok p.2) :
    members read (m.map fun p => (p.1, toJson p.2)) = ok m := by
  induction m with
  | nil => rfl
  | cons p m ih =>
    rw [List.map_cons, members, gives p List.mem_cons_self,
      ih fun q hq => gives q (List.mem_cons_of_mem _ hq)]
    rfl

end CodeAgent.Checked
