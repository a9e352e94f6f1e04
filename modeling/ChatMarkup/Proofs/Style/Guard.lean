/-
  ChatMarkup/Proofs/Style/Guard.lean
  ==================================
  **Guards restore the style that they found** — over whole courses of actions, however many
  guards are opened and closed within one another (`run_inOrder`).

  What a guard saved lies under what later guards saved, and a course that closes no more
  guards than it opens leaves it there (`exists_saved_run`).  So a guard that is closed behind
  a balanced course finds its own style on top.
-/
import ChatMarkup.Style.Action

namespace ChatMarkup

variable {actions more outer inner : List Action} {action : Action}

/-! ### Courses in order -/

namespace Action

theorem InOrder.count_le (inOrder : InOrder actions) :
    actions.count .leave ≤ actions.count .enter := inOrder actions (List.prefix_refl actions)

theorem InOrder.front (inOrder : InOrder (actions ++ more)) : InOrder actions :=
  fun front isFront => inOrder front (isFront.trans (List.prefix_append actions more))

theorem inOrder_concat :
    InOrder (actions ++ [action]) ↔
      InOrder actions ∧
        (actions ++ [action]).count .leave ≤ (actions ++ [action]).count .enter := by
  constructor
  · intro inOrder
    exact ⟨inOrder.front, inOrder.count_le⟩
  · rintro ⟨inOrder, last⟩ front isFront
    rcases List.prefix_concat_iff.mp isFront with rfl | shorter
    · exact last
    · exact inOrder front shorter

theorem InOrder.append (inOrder : InOrder actions) (then_ : InOrder more) :
    InOrder (actions ++ more) := by
  induction more using List.reverseRecOn with
  | nil => rwa [List.append_nil]
  | append_singleton more action ih =>
    rw [← List.append_assoc, inOrder_concat]
    refine ⟨ih then_.front, ?_⟩
    have first := inOrder.count_le
    have second := then_.count_le
    simp only [List.append_assoc, List.count_append] at first second ⊢
    omega

/-- Around a balanced course, opening and closing a guard keeps a course balanced. -/
theorem Balanced.guard (first : Balanced outer) (second : Balanced inner) :
    Balanced (outer ++ .enter :: inner ++ [.leave]) := by
  have opening : InOrder [Action.enter] := by decide
  have counts : (outer ++ Action.enter :: inner ++ [Action.leave]).count .leave =
      (outer ++ Action.enter :: inner ++ [Action.leave]).count .enter := by
    simp [first.2, second.2]
  exact ⟨inOrder_concat.mpr ⟨first.1.append (opening.append second.1), counts.le⟩, counts⟩

/-- Where guards are open, the one opened last has a balanced course behind it. -/
theorem InOrder.exists_opening (inOrder : InOrder actions)
    (opened : actions.count .leave < actions.count .enter) :
    ∃ outer inner, actions = outer ++ .enter :: inner ∧ Balanced inner := by
  -- from the last action backwards, on the length of the course in front of it
  induction length : actions.length using Nat.strong_induction_on generalizing actions with
  | _ n ih =>
    subst length
    rcases List.eq_nil_or_concat actions with rfl | ⟨front, action, rfl⟩
    · simp at opened
    · rw [List.concat_eq_append] at inOrder opened ih ⊢
      cases action with
      | write change =>
        obtain ⟨outer, inner, rfl, balanced⟩ :=
          ih front.length (by simp) inOrder.front (by simpa using opened) rfl
        refine ⟨outer, inner ++ [.write change], by simp, ?_, ?_⟩
        · rw [inOrder_concat]
          exact ⟨balanced.1, by simpa using balanced.1.count_le⟩
        · simpa using balanced.2
      | enter => exact ⟨front, [], rfl, by decide, rfl⟩
      | leave =>
        -- the guard that is closed here has been opened inside the one that is left open
        have more : front.count .leave + 1 < front.count .enter := by simpa using opened
        obtain ⟨outer, inner, rfl, balanced⟩ :=
          ih front.length (by simp) inOrder.front (by omega) rfl
        have around : outer.count .leave < outer.count .enter := by
          simp only [List.count_append, List.count_cons_self, ne_eq, reduceCtorEq,
            not_false_eq_true, List.count_cons_of_ne, balanced.2] at more
          omega
        obtain ⟨outer', inner', rfl, balanced'⟩ :=
          ih outer.length (by simp) inOrder.front.front around rfl
        exact ⟨outer', inner' ++ .enter :: inner ++ [.leave], by simp, balanced'.guard balanced⟩

end Action

/-! ### What open guards saved -/

namespace GuardedStyle

open ChatMarkup.Action (InOrder Balanced writesOutside)

theorem run_append (guarded : GuardedStyle) (actions more : List Action) :
    guarded.run (actions ++ more) = (guarded.run actions).run more :=
  List.foldl_append

theorem run_concat (guarded : GuardedStyle) (actions : List Action) (action : Action) :
    guarded.run (actions ++ [action]) = action.apply (guarded.run actions) :=
  run_append guarded actions [action]

/-- What has been saved stays under what guards save later that are still open. -/
theorem exists_saved_run (guarded : GuardedStyle) (inOrder : InOrder actions) :
    ∃ newer, (guarded.run actions).saved = newer ++ guarded.saved ∧
      newer.length + actions.count .leave = actions.count .enter := by
  induction actions using List.reverseRecOn with
  | nil => exact ⟨[], rfl, rfl⟩
  | append_singleton actions action ih =>
    obtain ⟨newer, saved, length⟩ := ih inOrder.front
    rw [run_concat]
    cases action with
    | write change => exact ⟨newer, saved, by simpa using length⟩
    | enter =>
      refine ⟨(guarded.run actions).current :: newer, congrArg _ saved, ?_⟩
      simpa [Nat.add_right_comm] using length
    | leave =>
      have closed : actions.count .leave + 1 ≤ actions.count .enter := by
        simpa using inOrder.count_le
      match newer, saved, length with
      | [], _, length =>
        rw [List.length_nil] at length
        omega
      | style :: newer, saved, length =>
        refine ⟨newer, ?_, ?_⟩
        · rw [Action.apply, leave, saved]
          rfl
        · simpa [Nat.add_right_comm, ← Nat.add_assoc] using length

theorem saved_run_of_balanced (guarded : GuardedStyle) (balanced : Balanced actions) :
    (guarded.run actions).saved = guarded.saved := by
  obtain ⟨newer, saved, length⟩ := guarded.exists_saved_run balanced.1
  have none : newer = [] := List.eq_nil_of_length_eq_zero (by have := balanced.2; omega)
  rw [saved, none, List.nil_append]

/-- **A guard restores the style that it found.** -/
theorem run_guard (guarded : GuardedStyle) (balanced : Balanced inner) :
    guarded.run (.enter :: inner ++ [.leave]) = guarded := by
  have saved : ((guarded.run [.enter]).run inner).saved = guarded.current :: guarded.saved :=
    saved_run_of_balanced _ balanced
  have split : Action.enter :: inner = [.enter] ++ inner := rfl
  rw [run_concat, split, run_append, Action.apply, leave, saved]

/-! ### Outside all guards -/

/-- The style outside all guards: the one that the outermost found, or the current one. -/
def outermost (guarded : GuardedStyle) : Style := guarded.saved.getLastD guarded.current

theorem outermost_enter (guarded : GuardedStyle) : guarded.enter.outermost = guarded.outermost := by
  rw [outermost, enter, outermost]
  cases guarded.saved <;> rfl

theorem outermost_leave (guarded : GuardedStyle) : guarded.leave.outermost = guarded.outermost := by
  obtain ⟨current, saved⟩ := guarded
  match saved with
  | [] => rfl
  | [_] => rfl
  | _ :: _ :: _ => rfl

/-- Outside all guards there is only what has been written there. -/
theorem outermost_run (guarded : GuardedStyle) (actions : List Action) :
    (guarded.run actions).outermost =
      guarded.outermost.written (writesOutside guarded.saved.length actions) := by
  induction actions generalizing guarded with
  | nil => rfl
  | cons action actions ih =>
    have step : guarded.run (action :: actions) = (action.apply guarded).run actions := rfl
    rw [step, ih]
    cases action with
    | write change =>
      obtain ⟨current, saved⟩ := guarded
      -- a write inside a guard changes nothing outside of all of them
      cases saved <;> rfl
    | enter =>
      rw [Action.apply, outermost_enter]
      rfl
    | leave =>
      rw [Action.apply, outermost_leave]
      obtain ⟨current, saved⟩ := guarded
      cases saved <;> rfl

/-- Once all guards are closed, what has been written outside them is left. -/
theorem run_balanced (style : Style) (balanced : Balanced actions) :
    (unguarded style).run actions = unguarded (style.written (writesOutside 0 actions)) := by
  have saved : ((unguarded style).run actions).saved = [] := saved_run_of_balanced _ balanced
  have outside : ((unguarded style).run actions).outermost =
      style.written (writesOutside 0 actions) := outermost_run (unguarded style) actions
  generalize (unguarded style).run actions = last at saved outside
  obtain ⟨current, _⟩ := last
  cases saved
  exact congrArg unguarded outside

/-- **Guards restore the style that they found.**  In a course that closes guards in order, every
    guard that is closed has been opened in front of a balanced course, and all is as it was
    then.  What an open guard saved does not change, and it can be seen while no later one is
    open.  When all are closed, only the writes made while none was open are left. -/
theorem run_inOrder (style : Style) (actions : List Action) (inOrder : InOrder actions) :
    (∀ before behind, actions = before ++ .leave :: behind →
      ∃ outer inner, before = outer ++ .enter :: inner ∧ Balanced inner ∧
        (unguarded style).run (before ++ [.leave]) = (unguarded style).run outer) ∧
      (∀ outer inner behind, actions = outer ++ .enter :: inner ++ behind → InOrder inner →
        ∃ newer, newer.length + inner.count .leave = inner.count .enter ∧
          ((unguarded style).run (outer ++ .enter :: inner)).saved =
            newer ++ ((unguarded style).run outer).current ::
              ((unguarded style).run outer).saved) ∧
      (∀ outer inner behind, actions = outer ++ .enter :: inner ++ behind → Balanced inner →
        ((unguarded style).run (outer ++ .enter :: inner)).saved? =
          some ((unguarded style).run outer).current) ∧
      (actions.count .leave = actions.count .enter →
        (unguarded style).run actions =
          unguarded (style.written (writesOutside 0 actions))) := by
  refine ⟨?_, ?_, ?_, fun closed => run_balanced style ⟨inOrder, closed⟩⟩
  · rintro before behind rfl
    have split : before ++ Action.leave :: behind = before ++ [.leave] ++ behind := by simp
    rw [split] at inOrder
    have opened : before.count .leave + 1 ≤ before.count .enter := by
      simpa using inOrder.front.count_le
    -- the guard that is closed, and a balanced course since it was opened
    obtain ⟨outer, inner, rfl, balanced⟩ :=
      inOrder.front.front.exists_opening (by omega)
    refine ⟨outer, inner, rfl, balanced, ?_⟩
    rw [List.append_assoc, run_append]
    exact run_guard _ balanced
  · rintro outer inner behind - open_
    have split : outer ++ Action.enter :: inner = outer ++ ([.enter] ++ inner) := rfl
    rw [split, run_append, run_append]
    obtain ⟨newer, saved, length⟩ :=
      (((unguarded style).run outer).run [.enter]).exists_saved_run open_
    exact ⟨newer, length, saved⟩
  · rintro outer inner behind - closed
    have split : outer ++ Action.enter :: inner = outer ++ ([.enter] ++ inner) := rfl
    rw [split, run_append, run_append, saved?, saved_run_of_balanced _ closed]
    rfl

/-- What is written inside of guards is gone when they are closed. -/
theorem run_nested_guards :
    let actions : List Action := [.write (.bold true), .enter,
      .write (.foreground (some ⟨4, by decide⟩)), .enter, .write (.bold false), .leave,
      .write (.underline true), .leave, .write (.background (some ⟨1, by decide⟩))]
    InOrder actions ∧ actions.count .leave = actions.count .enter ∧
      (unguarded Style.plain).run actions =
        unguarded { bold := true, background := some ⟨1, by decide⟩ } := by
  intro actions
  have inOrder : InOrder actions := by decide
  have closed : actions.count .leave = actions.count .enter := by decide
  obtain ⟨-, -, -, outside⟩ := run_inOrder Style.plain actions inOrder
  exact ⟨inOrder, closed, outside closed⟩

end GuardedStyle

end ChatMarkup
