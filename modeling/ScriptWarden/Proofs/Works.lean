import ScriptWarden.Fault

/-!
# Work that may fail

Work on a state that may fail and keeps what it changed before it failed. What a composite does is
said by what its parts do, so that no proof opens the monad; and a relation between states that is
reflexive and transitive is kept by a composite when its parts keep it.

## Results

* `bind_apply`, `tryCatch_apply` — composites, run on a state.
* `Keeps.bind`, `Never.bind` — composites keep what their parts keep, and fail as their parts do.
-/

namespace ScriptWarden

/-- Work on states of a kind. -/
abbrev Work (σ α : Type) := ExceptT Fault (StateM σ) α

namespace Work

variable {σ α β : Type}

-- ---------------------------------------------------------------------------
-- Running composites
-- ---------------------------------------------------------------------------

@[simp] theorem get_apply (s : σ) : (get : Work σ σ) s = (.ok s, s) := rfl

@[simp] theorem set_apply (s t : σ) : (set t : Work σ PUnit) s = (.ok ⟨⟩, t) := rfl

@[simp] theorem modify_apply (f : σ → σ) (s : σ) : (modify f : Work σ PUnit) s = (.ok ⟨⟩, f s) :=
  rfl

theorem bind_apply (w : Work σ α) (f : α → Work σ β) (s : σ) :
    (w >>= f) s = match w s with
      | (.ok a, t) => f a t
      | (.error e, t) => (.error e, t) := by
  show (ExceptT.bind w f) s = _
  simp only [ExceptT.bind, ExceptT.mk, bind, StateT.bind]
  rcases w s with ⟨_ | _, t⟩ <;> rfl

theorem bind_ok {w : Work σ α} {f : α → Work σ β} {s t : σ} {a : α} (h : w s = (.ok a, t)) :
    (w >>= f) s = f a t := by
  rw [bind_apply, h]

theorem bind_error {w : Work σ α} {f : α → Work σ β} {s t : σ} {e : Fault}
    (h : w s = (.error e, t)) : (w >>= f) s = (.error e, t) := by
  rw [bind_apply, h]

/-- A composite that is done has had both parts done. -/
theorem bind_eq_ok {w : Work σ α} {f : α → Work σ β} {s u : σ} {b : β} :
    (w >>= f) s = (.ok b, u) ↔ ∃ a t, w s = (.ok a, t) ∧ f a t = (.ok b, u) := by
  rw [bind_apply]
  rcases w s with ⟨e | a, t⟩
  · constructor
    · intro hFails
      cases hFails
    · rintro ⟨a, t', hDone, -⟩
      cases hDone
  · constructor
    · exact fun hDone => ⟨a, t, rfl, hDone⟩
    · rintro ⟨a', t', hFirst, hDone⟩
      cases hFirst
      exact hDone

theorem discard_apply (w : Work σ α) (s : σ) :
    (discard w : Work σ PUnit) s = match w s with
      | (.ok _, t) => (.ok ⟨⟩, t)
      | (.error e, t) => (.error e, t) := by
  show (w >>= fun _ => (pure ⟨⟩ : Work σ PUnit)) s = _
  rw [bind_apply]
  rfl

theorem discard_snd (w : Work σ α) (s : σ) : ((discard w : Work σ PUnit) s).2 = (w s).2 := by
  rw [discard_apply]
  rcases w s with ⟨_ | _, t⟩ <;> rfl

theorem tryCatch_apply (w : Work σ α) (f : Fault → Work σ α) (s : σ) :
    (tryCatch w f) s = match w s with
      | (.ok a, t) => (.ok a, t)
      | (.error e, t) => f e t := by
  show (ExceptT.tryCatch w f) s = _
  simp only [ExceptT.tryCatch, ExceptT.mk, bind, StateT.bind]
  rcases w s with ⟨_ | _, t⟩ <;> rfl

-- ---------------------------------------------------------------------------
-- What work keeps
-- ---------------------------------------------------------------------------

/-- Whatever comes of the work, the states before and after are related. -/
def Keeps (R : σ → σ → Prop) (w : Work σ α) : Prop := ∀ s, R s (w s).2

variable {R : σ → σ → Prop}

theorem Keeps.pure (hRefl : ∀ s, R s s) (a : α) : Keeps R (pure a : Work σ α) := hRefl

theorem Keeps.throw (hRefl : ∀ s, R s s) (f : Fault) : Keeps R (throw f : Work σ α) := hRefl

theorem Keeps.bind (hTrans : ∀ s t u, R s t → R t u → R s u) {w : Work σ α} {f : α → Work σ β}
    (hFirst : Keeps R w) (hRest : ∀ a, Keeps R (f a)) : Keeps R (w >>= f) := by
  intro s
  rw [bind_apply]
  have hBefore := hFirst s
  rcases hRun : w s with ⟨answer, t⟩
  rw [hRun] at hBefore
  cases answer with
  | error e => exact hBefore
  | ok a => exact hTrans s t _ hBefore (hRest a t)

-- ---------------------------------------------------------------------------
-- How work does not fail
-- ---------------------------------------------------------------------------

/-- The work may fail, but not with this fault. -/
def Never (f : Fault) (w : Work σ α) : Prop := ∀ s, (w s).1 ≠ .error f

theorem Never.pure {f : Fault} (a : α) : Never f (pure a : Work σ α) := fun _ => nofun

theorem Never.bind {f : Fault} {w : Work σ α} {g : α → Work σ β} (hFirst : Never f w)
    (hRest : ∀ a, Never f (g a)) : Never f (w >>= g) := by
  intro s
  rw [bind_apply]
  have hBefore := hFirst s
  rcases hRun : w s with ⟨e | a, t⟩
  · rw [hRun] at hBefore
    intro hFails
    cases hFails
    exact hBefore rfl
  · exact hRest a t

end Work

end ScriptWarden
