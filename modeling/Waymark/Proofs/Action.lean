/-!
# Running actions

An action of type `ExceptT ε (StateM τ) α` keeps a state and may fail; what it changed before it
failed stays changed. These rules take the runs of composed actions apart.
-/

namespace Waymark.Action

variable {ε τ α β : Type}

/-- What the first action changed stays changed, whether the second one is performed or not. -/
theorem run_bind (first : ExceptT ε (StateM τ) α) (next : α → ExceptT ε (StateM τ) β) (state : τ) :
    (first >>= next).run state =
      match first.run state with
      | (.ok value, after) => (next value).run after
      | (.error fault, after) => (.error fault, after) := by
  unfold ExceptT.run
  simp only [bind, ExceptT.bind, ExceptT.mk, StateT.bind, ExceptT.bindCont]
  rcases first state with ⟨_ | _, _⟩ <;> rfl

theorem run_bind_ok {first : ExceptT ε (StateM τ) α} {state after : τ} {value : α}
    (done : first.run state = (.ok value, after)) (next : α → ExceptT ε (StateM τ) β) :
    (first >>= next).run state = (next value).run after := by
  rw [run_bind, done]

theorem run_bind_error {first : ExceptT ε (StateM τ) α} {state after : τ} {fault : ε}
    (failed : first.run state = (.error fault, after)) (next : α → ExceptT ε (StateM τ) β) :
    (first >>= next).run state = (.error fault, after) := by
  rw [run_bind, failed]

@[simp] theorem run_pure (value : α) (state : τ) :
    (pure value : ExceptT ε (StateM τ) α).run state = (.ok value, state) := rfl

/-- To change what an action answers changes nothing else. -/
theorem run_bind_pure_snd (first : ExceptT ε (StateM τ) α) (change : α → β) (state : τ) :
    ((first >>= fun value => pure (change value)).run state).2 = (first.run state).2 := by
  rw [run_bind]
  rcases first.run state with ⟨_ | _, _⟩ <;> rfl

/-- If only the first action can fail, a failure leaves behind what that one does. -/
theorem run_bind_snd_of_fails {first : ExceptT ε (StateM τ) α} {next : α → ExceptT ε (StateM τ) β}
    {state : τ} {fault : ε}
    (never : ∀ value after, ∃ answer, ((next value).run after).1 = .ok answer)
    (failed : ((first >>= next).run state).1 = .error fault) :
    ((first >>= next).run state).2 = (first.run state).2 := by
  rw [run_bind] at failed ⊢
  rcases outcome : first.run state with ⟨other | value, after⟩
  · rfl
  · rw [outcome] at failed
    obtain ⟨answer, answered⟩ := never value after
    exact absurd (answered.symm.trans failed) (by simp)

/-- To go through a list for the answers or for nothing leaves the same behind. -/
theorem run_mapM_snd {γ : Type} {ask : γ → ExceptT ε (StateM τ) α}
    {look : γ → ExceptT ε (StateM τ) Unit}
    (same : ∀ item, (ask item >>= fun _ => pure ()) = look item) (items : List γ) (state : τ) :
    ((items.mapM ask).run state).2 = ((items.forM look).run state).2 := by
  have whole : (items.mapM ask >>= fun _ => pure ()) = items.forM look := by
    induction items with
    | nil => rfl
    | cons item later ih =>
      show _ = (look item >>= fun _ => later.forM look)
      rw [← ih, ← same]
      simp [List.mapM_cons]
  rw [← whole, run_bind_pure_snd]

theorem run_get_bind (next : τ → ExceptT ε (StateM τ) α) (state : τ) :
    (get >>= next).run state = (next state).run state := rfl

@[simp] theorem run_modify (change : τ → τ) (state : τ) :
    (modify change : ExceptT ε (StateM τ) Unit).run state = (.ok (), change state) := rfl

end Waymark.Action
