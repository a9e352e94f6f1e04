/-
  ChatMarkup/Proofs/Result.lean
  =============================
  **Results and errors** — when a chain of steps that may fail succeeds: each of them does.
  And which errors it may fail with: those of its steps (`FailsOnly`).  Renderers and readers
  are such chains, and their proofs take them apart with these.
-/
import Mathlib.Data.List.Forall2

namespace ChatMarkup

variable {ε ε' α β : Type}

theorem ok_bind (a : α) (f : α → Except ε β) : (.ok a : Except ε α) >>= f = f a := rfl

theorem bind_ok (x : Except ε α) : (x >>= fun a => .ok a) = x := by
  cases x <;> rfl

theorem map_bind {γ : Type} (x : Except ε α) (f : α → Except ε β) (g : β → γ) :
    (x >>= f).map g = x >>= fun a => (f a).map g := by
  cases x <;> rfl

theorem bind_eq_ok {x : Except ε α} {f : α → Except ε β} {b : β} :
    x >>= f = .ok b ↔ ∃ a, x = .ok a ∧ f a = .ok b := by
  cases x with
  | error e =>
    constructor
    · intro h
      cases h
    · intro h
      rcases h with ⟨a, h, -⟩
      cases h
  | ok a =>
    constructor
    · intro h
      exact ⟨a, rfl, h⟩
    · intro h
      rcases h with ⟨_, same, h⟩
      cases same
      exact h

theorem mapError_eq_ok {x : Except ε α} {f : ε → ε'} {a : α} :
    x.mapError f = .ok a ↔ x = .ok a := by
  cases x with
  | error e =>
    constructor
    · intro h
      cases h
    · intro h
      cases h
  | ok value =>
    constructor
    · intro h
      cases h
      rfl
    · intro h
      cases h
      rfl

theorem map_eq_ok {x : Except ε α} {f : α → β} {b : β} :
    x.map f = .ok b ↔ ∃ a, x = .ok a ∧ f a = b := by
  cases x <;> simp [Except.map]

theorem map_eq_error {x : Except ε α} {f : α → β} {e : ε} :
    x.map f = .error e ↔ x = .error e := by
  cases x <;> simp [Except.map]

theorem mapM_nil_eq_ok {f : α → Except ε β} {bs : List β} :
    [].mapM f = .ok bs ↔ bs = [] := by
  rw [List.mapM_nil]
  constructor
  · intro h
    cases h
    rfl
  · rintro rfl
    rfl

theorem mapM_cons_eq_ok {f : α → Except ε β} {a : α} {as : List α} {bs : List β} :
    (a :: as).mapM f = .ok bs ↔ ∃ b rest, f a = .ok b ∧ as.mapM f = .ok rest ∧ bs = b :: rest := by
  rw [List.mapM_cons, bind_eq_ok]
  constructor
  · intro h
    rcases h with ⟨b, first, h⟩
    obtain ⟨rest, more, h⟩ := bind_eq_ok.mp h
    cases h
    exact ⟨b, rest, first, more, rfl⟩
  · intro h
    rcases h with ⟨b, rest, first, more, rfl⟩
    exact ⟨b, first, bind_eq_ok.mpr ⟨rest, more, rfl⟩⟩

theorem mapM_congr {f g : α → Except ε β} {as : List α} (same : ∀ a ∈ as, f a = g a) :
    as.mapM f = as.mapM g := by
  induction as with
  | nil => rfl
  | cons a as ih =>
    obtain ⟨first, others⟩ := List.forall_mem_cons.mp same
    rw [List.mapM_cons, List.mapM_cons, first, ih others]

/-- Steps over a list succeed if each of them does. -/
theorem mapM_eq_ok_iff {f : α → Except ε β} {as : List α} {bs : List β} :
    as.mapM f = .ok bs ↔ List.Forall₂ (fun a b => f a = .ok b) as bs := by
  induction as generalizing bs with
  | nil => rw [mapM_nil_eq_ok, List.forall₂_nil_left_iff]
  | cons a as ih =>
    rw [mapM_cons_eq_ok, List.forall₂_cons_left_iff]
    simp only [ih]

/-- Steps over a list that all succeed have results for all of it. -/
theorem exists_forall₂_iff {f : α → Except ε β} {as : List α} :
    (∃ bs, List.Forall₂ (fun a b => f a = .ok b) as bs) ↔ ∀ a ∈ as, ∃ b, f a = .ok b := by
  induction as with
  | nil => simp
  | cons a as ih =>
    rw [List.forall_mem_cons, ← ih]
    constructor
    · rintro ⟨_, results⟩
      obtain ⟨b, bs, first, others, -⟩ := List.forall₂_cons_left_iff.mp results
      exact ⟨⟨b, first⟩, bs, others⟩
    · rintro ⟨⟨b, first⟩, bs, others⟩
      exact ⟨b :: bs, .cons first others⟩

theorem bind_pure_eq_error_iff {x : Except ε α} {f : α → β} {e : ε} :
    (x >>= fun a => pure (f a)) = .error e ↔ x = .error e := by
  cases x with
  | error other =>
    constructor <;> intro h <;> cases h <;> rfl
  | ok a =>
    constructor <;> intro h <;> cases h

/-- They fail with the error of the first that fails. -/
theorem mapM_eq_error_iff {f : α → Except ε β} {as : List α} {e : ε} :
    as.mapM f = .error e ↔
      ∃ before a after, as = before ++ a :: after ∧ (∀ earlier ∈ before, ∃ b, f earlier = .ok b) ∧
        f a = .error e := by
  induction as with
  | nil => simp [List.mapM_nil, pure, Except.pure]
  | cons a as ih =>
    rw [List.mapM_cons]
    cases first : f a with
    | error other =>
      constructor
      · intro h
        cases h
        exact ⟨[], a, as, rfl, by simp, first⟩
      · rintro ⟨before, failing, after, split, succeeded, failed⟩
        -- nothing succeeds before the first one, which fails
        rcases List.cons_eq_append_iff.mp split with ⟨rfl, same⟩ | ⟨more, rfl, -⟩
        · cases same
          rw [← first, failed]
          rfl
        · obtain ⟨b, succeeded⟩ := succeeded a List.mem_cons_self
          cases first.symm.trans succeeded
    | ok b =>
      rw [ok_bind, bind_pure_eq_error_iff, ih]
      constructor
      · rintro ⟨before, failing, after, rfl, succeeded, failed⟩
        exact ⟨a :: before, failing, after, rfl, List.forall_mem_cons.mpr ⟨⟨b, first⟩, succeeded⟩,
          failed⟩
      · rintro ⟨before, failing, after, split, succeeded, failed⟩
        rcases List.cons_eq_append_iff.mp split with ⟨rfl, same⟩ | ⟨more, rfl, rest⟩
        · cases same
          cases first.symm.trans failed
        · exact ⟨more, failing, after, rest, (List.forall_mem_cons.mp succeeded).2, failed⟩

/-! ### Errors -/

def error? : Except ε α → Option ε
  | .ok _ => none
  | .error e => some e

theorem error?_eq_some_iff {x : Except ε α} {e : ε} : error? x = some e ↔ x = .error e := by
  cases x <;> simp [error?]

theorem error?_eq_none_iff {x : Except ε α} : error? x = none ↔ ∃ a, x = .ok a := by
  cases x <;> simp [error?]

def FailsOnly (P : ε → Prop) (x : Except ε α) : Prop := ∀ e, x = .error e → P e

variable {P Q : ε → Prop}

theorem failsOnly_ok (a : α) : FailsOnly P (.ok a : Except ε α) := by
  intro e h
  cases h

theorem failsOnly_error {e : ε} (h : P e) : FailsOnly P (.error e : Except ε α) := by
  intro e h
  cases h
  assumption

theorem FailsOnly.mono {x : Except ε α} (h : FailsOnly P x) (weaker : ∀ e, P e → Q e) :
    FailsOnly Q x := fun e failed => weaker e (h e failed)

theorem FailsOnly.bind {x : Except ε α} {f : α → Except ε β} (first : FailsOnly P x)
    (rest : ∀ a, x = .ok a → FailsOnly P (f a)) : FailsOnly P (x >>= f) := by
  intro e h
  cases result : x with
  | error e' =>
    rw [result] at h
    cases h
    exact first e result
  | ok a =>
    rw [result] at h
    exact rest a result e h

theorem failsOnly_mapError {Q : ε' → Prop} {x : Except ε α} {f : ε → ε'}
    (h : FailsOnly (fun e => Q (f e)) x) : FailsOnly Q (x.mapError f) := by
  intro e failed
  cases x with
  | error e' =>
    cases failed
    exact h e' rfl
  | ok a => cases failed

theorem failsOnly_map {x : Except ε α} {f : α → β} (h : FailsOnly P x) :
    FailsOnly P (x.map f) := by
  intro e failed
  cases x with
  | error e' =>
    cases failed
    exact h e rfl
  | ok a => cases failed

theorem failsOnly_mapM {f : α → Except ε β} {as : List α}
    (h : ∀ a ∈ as, FailsOnly P (f a)) : FailsOnly P (as.mapM f) := by
  induction as with
  | nil => exact failsOnly_ok []
  | cons a as ih =>
    obtain ⟨first, others⟩ := List.forall_mem_cons.mp h
    rw [List.mapM_cons]
    exact first.bind fun b _ => (ih others).bind fun bs _ => failsOnly_ok (b :: bs)

end ChatMarkup
