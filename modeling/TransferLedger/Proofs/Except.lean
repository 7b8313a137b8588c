/-! Operations that may fail, one after the other. -/

namespace TransferLedger

variable {ε φ α β : Type}

@[simp] theorem ok_bind (value : α) (next : α → Except ε β) :
    (Except.ok value >>= next) = next value :=
  rfl

@[simp] theorem error_bind (fault : ε) (next : α → Except ε β) :
    ((Except.error fault : Except ε α) >>= next) = .error fault :=
  rfl

@[simp] theorem mapError_ok (value : α) (change : ε → φ) :
    (Except.ok value : Except ε α).mapError change = .ok value :=
  rfl

@[simp] theorem mapError_error (fault : ε) (change : ε → φ) :
    (Except.error fault : Except ε α).mapError change = .error (change fault) :=
  rfl

theorem mapError_eq_ok_iff {result : Except ε α} {change : ε → φ} {value : α} :
    result.mapError change = .ok value ↔ result = .ok value := by
  cases result with
  | error fault => simp
  | ok found => simp

theorem mapError_eq_error_iff {result : Except ε α} {change : ε → φ} {changed : φ} :
    result.mapError change = .error changed ↔ ∃ fault, result = .error fault ∧
      change fault = changed := by
  cases result with
  | error found => simp
  | ok value => simp

theorem mapError_bind (first : Except ε α) (next : α → Except ε β) (change : ε → φ) :
    (first >>= next).mapError change =
      first.mapError change >>= fun value => (next value).mapError change := by
  cases first with
  | error fault => rfl
  | ok value => rfl

@[simp] theorem map_ok (value : α) (change : α → β) :
    (Except.ok value : Except ε α).map change = .ok (change value) :=
  rfl

theorem map_eq_error_iff {first : Except ε α} {change : α → β} {fault : ε} :
    first.map change = .error fault ↔ first = .error fault := by
  cases first with
  | error found => simp [Except.map]
  | ok value => simp [Except.map]

/-- What a successful operation has done in its first half and in its second. -/
theorem bind_eq_ok_iff {first : Except ε α} {next : α → Except ε β} {value : β} :
    (first >>= next) = .ok value ↔ ∃ middle, first = .ok middle ∧ next middle = .ok value := by
  cases first with
  | error fault => simp
  | ok middle => simp

/-- An operation fails in its first half, or in the second after the first has succeeded. -/
theorem bind_eq_error_iff {first : Except ε α} {next : α → Except ε β} {fault : ε} :
    (first >>= next) = .error fault ↔
      first = .error fault ∨ ∃ middle, first = .ok middle ∧ next middle = .error fault := by
  cases first with
  | error found => simp
  | ok middle => simp

theorem check_bind_eq_ok_iff {check : Except ε Unit} {next : Unit → Except ε β} {value : β} :
    (check >>= next) = .ok value ↔ check = .ok () ∧ next () = .ok value := by
  cases check with
  | error fault => simp
  | ok _ => simp

/-! ## One operation on every member of a list -/

variable {list : List α} {operation : α → Except ε β} {results : List β} {fault : ε}

theorem mapM_congr {other : α → Except ε β}
    (same : ∀ value ∈ list, operation value = other value) :
    list.mapM operation = list.mapM other := by
  induction list with
  | nil => rfl
  | cons first rest ih =>
      rw [List.mapM_cons, List.mapM_cons, same first List.mem_cons_self,
        ih fun value member => same value (List.mem_cons_of_mem _ member)]

theorem mapM_eq_ok_iff :
    list.mapM operation = .ok results ↔ results.length = list.length ∧
      ∀ (place : Nat) value, list[place]? = some value →
        ∃ result, results[place]? = some result ∧ operation value = .ok result := by
  induction list generalizing results with
  | nil =>
      rw [List.mapM_nil]
      constructor
      · rintro ⟨⟩
        exact ⟨rfl, fun place value found => by simp at found⟩
      · rintro ⟨none, _⟩
        rw [List.length_eq_zero_iff.1 none]
        rfl
  | cons first rest ih =>
      rw [List.mapM_cons, bind_eq_ok_iff]
      constructor
      · rintro ⟨result, done, later⟩
        obtain ⟨others, ended, ⟨⟩⟩ := bind_eq_ok_iff.1 later
        obtain ⟨length, each⟩ := ih.1 ended
        refine ⟨congrArg Nat.succ length, fun place value found => ?_⟩
        cases place with
        | zero =>
            cases found
            exact ⟨result, rfl, done⟩
        | succ place => exact each place value found
      · rintro ⟨length, each⟩
        obtain ⟨result, front, done⟩ := each 0 first rfl
        cases results with
        | nil => cases front
        | cons _ others =>
            cases front
            have ended := ih.2 ⟨Nat.succ.inj length, fun place value found =>
              each (place + 1) value found⟩
            exact ⟨result, done, bind_eq_ok_iff.2 ⟨others, ended, rfl⟩⟩

/-- The first member on which the operation fails decides how it fails on the list. -/
theorem mapM_eq_error_iff :
    list.mapM operation = .error fault ↔ ∃ (place : Nat) (value : α), list[place]? = some value ∧
      operation value = .error fault ∧
      ∀ (earlier : Nat) other, earlier < place → list[earlier]? = some other →
        ∃ result, operation other = .ok result := by
  induction list with
  | nil =>
      rw [List.mapM_nil]
      exact ⟨nofun, fun ⟨_, _, found, _⟩ => by simp at found⟩
  | cons first rest ih =>
      rw [List.mapM_cons, bind_eq_error_iff]
      constructor
      · rintro (failed | ⟨result, done, later⟩)
        · exact ⟨0, first, rfl, failed, fun earlier _ before => absurd before (Nat.not_lt_zero _)⟩
        · rcases bind_eq_error_iff.1 later with failed | ⟨_, _, ⟨⟩⟩
          obtain ⟨place, value, found, faulty, before⟩ := ih.1 failed
          refine ⟨place + 1, value, found, faulty, fun earlier other less there => ?_⟩
          cases earlier with
          | zero =>
              cases there
              exact ⟨result, done⟩
          | succ earlier => exact before earlier other (Nat.lt_of_succ_lt_succ less) there
      · rintro ⟨place, value, found, faulty, before⟩
        cases place with
        | zero =>
            cases found
            exact .inl faulty
        | succ place =>
            obtain ⟨result, done⟩ := before 0 first (Nat.succ_pos _) rfl
            have failed := ih.2 ⟨place, value, found, faulty, fun earlier other less there =>
              before (earlier + 1) other (Nat.succ_lt_succ less) there⟩
            exact .inr ⟨result, done, bind_eq_error_iff.2 (.inl failed)⟩

end TransferLedger
