import Mathlib
import Tether.Transport

/-!
# How calls end

A call ends with a value or halts, and leaves a state in either case. `Call.Ends` says what is
true of the end, as one predicate for each of the two cases, and is computed along the call:
there is a lemma for each way calls are put together. `Call.Respects` is the special case of a
relation that holds between the states before and after, whatever becomes of the call.

* `ends_bind`: the second call starts where the first one ended;
* `Prompt`: a call that does not wait;
* `Commutes`: a call that does not look at what is changed;
* `Respects.bind`, `Respects.forM`: a preorder is respected by what is put together from calls
  that respect it.
-/

namespace Tether

/-- To fail is not to wait. -/
theorem Halt.failed_ne_waiting {ε : Type} (e : ε) : Halt.failed e ≠ .waiting :=
  nofun

end Tether

namespace Tether.Call

variable {ε ε' σ τ α β : Type}

/-- The state a call leaves, however it ends. -/
def state (c : Call ε σ α) (s : σ) : σ :=
  match c s with
  | .ok _ t => t
  | .error _ t => t

/-- A call started in `s` ends with a value and a state as in `Q`, or halts as in `E`. -/
def Ends (c : Call ε σ α) (s : σ) (Q : α → σ → Prop) (E : Halt ε → σ → Prop) : Prop :=
  match c s with
  | .ok a t => Q a t
  | .error h t => E h t

variable {c : Call ε σ α} {f : α → Call ε σ β} {s t : σ} {a : α} {e : ε}
  {Q Q' : α → σ → Prop} {E E' : Halt ε → σ → Prop}

theorem Ends.mono (h : c.Ends s Q E) (hQ : ∀ a t, Q a t → Q' a t) (hE : ∀ e t, E e t → E' e t) :
    c.Ends s Q' E' := by
  unfold Ends at h ⊢
  split at h
  · exact hQ _ _ h
  · exact hE _ _ h

theorem Ends.and (h : c.Ends s Q E) (h' : c.Ends s Q' E') :
    c.Ends s (fun a t => Q a t ∧ Q' a t) (fun e t => E e t ∧ E' e t) := by
  unfold Ends at h h' ⊢
  split at h
  · next eq => rw [eq] at h'; exact ⟨h, h'⟩
  · next eq => rw [eq] at h'; exact ⟨h, h'⟩

theorem Ends.imp {A : Prop} (h : A → c.Ends s Q E) :
    c.Ends s (fun a t => A → Q a t) (fun e t => A → E e t) := by
  unfold Ends at h ⊢
  split
  · next eq => exact fun hA => by simpa only [eq] using h hA
  · next eq => exact fun hA => by simpa only [eq] using h hA

theorem Ends.forall {ι : Type} {Q : ι → α → σ → Prop} {E : ι → Halt ε → σ → Prop}
    (h : ∀ i, c.Ends s (Q i) (E i)) :
    c.Ends s (fun a t => ∀ i, Q i a t) (fun e t => ∀ i, E i e t) := by
  unfold Ends at h ⊢
  split
  · next eq => exact fun i => by simpa only [eq] using h i
  · next eq => exact fun i => by simpa only [eq] using h i

/-- What is true wherever a call ends is true if it ends. -/
theorem Ends.const {P : Prop} (h : c.Ends s (fun _ _ => P) (fun _ _ => False)) : P := by
  unfold Ends at h
  split at h
  · exact h
  · exact h.elim

theorem Ends.state {P : σ → Prop} (h : c.Ends s (fun _ => P) (fun _ => P)) : P (c.state s) := by
  unfold Ends at h
  unfold Call.state
  split at h <;> exact h

/-- How a call ends is how it ends. -/
theorem ends_self (c : Call ε σ α) (s : σ) :
    c.Ends s (fun a t => c s = .ok a t) (fun h t => c s = .error h t) := by
  unfold Ends
  split <;> assumption

/-- A call that can only halt, in one way and in one state, halts so. -/
theorem Ends.eq_error {h : Halt ε}
    (hends : c.Ends s (fun _ _ => False) (fun h' t' => h' = h ∧ t' = t)) : c s = .error h t := by
  unfold Ends at hends
  split at hends
  · exact hends.elim
  · next heq =>
    obtain ⟨rfl, rfl⟩ := hends
    exact heq

/-- The state that a call leaves is the state that it leaves. -/
theorem ends_state (c : Call ε σ α) (s : σ) :
    c.Ends s (fun _ t => t = c.state s) (fun _ t => t = c.state s) := by
  rw [Ends, Call.state]
  split <;> rfl

/-- What a call gives, without the state that it leaves. -/
def result (c : Call ε σ α) (s : σ) : Except (Halt ε) α :=
  match c s with
  | .ok a _ => .ok a
  | .error h _ => .error h

theorem Ends.of_result {P : Except (Halt ε) α → σ → Prop}
    (h : c.Ends s (fun a t => P (.ok a) t) (fun h t => P (.error h) t)) :
    P (c.result s) (c.state s) := by
  unfold Ends at h
  unfold result Call.state
  split at h <;> exact h

/-- To drop what a call gives does not matter to its state. -/
theorem state_drop (c : Call ε σ α) (b : β) (s : σ) :
    (c >>= fun _ => pure b).state s = c.state s := by
  simp only [Call.state, bind, EStateM.bind]
  cases c s <;> rfl

/-! ### Along a call -/

@[simp] theorem ends_pure : Ends (pure a : Call ε σ α) s Q E ↔ Q a s :=
  Iff.rfl

@[simp] theorem ends_bind {Q : β → σ → Prop} :
    (c >>= f).Ends s Q E ↔ c.Ends s (fun a t => (f a).Ends t Q E) E := by
  simp only [Ends, bind, EStateM.bind]
  cases c s <;> rfl

@[simp] theorem ends_map {g : α → β} {Q : β → σ → Prop} :
    Ends (g <$> c) s Q E ↔ c.Ends s (fun a t => Q (g a) t) E := by
  simp only [Ends, Functor.map, EStateM.map]
  cases c s <;> rfl

@[simp] theorem ends_get {Q : σ → σ → Prop} : Ends (get : Call ε σ σ) s Q E ↔ Q s s :=
  Iff.rfl

@[simp] theorem ends_set {Q : PUnit → σ → Prop} :
    Ends (set t : Call ε σ PUnit) s Q E ↔ Q ⟨⟩ t :=
  Iff.rfl

@[simp] theorem ends_modify {g : σ → σ} {Q : PUnit → σ → Prop} :
    Ends (modify g : Call ε σ PUnit) s Q E ↔ Q ⟨⟩ (g s) :=
  Iff.rfl

@[simp] theorem ends_throw {h : Halt ε} : Ends (throw h : Call ε σ α) s Q E ↔ E h s :=
  Iff.rfl

@[simp] theorem ends_fail : Ends (fail e : Call ε σ α) s Q E ↔ E (.failed e) s :=
  Iff.rfl

@[simp] theorem ends_ofOption_some : Ends (ofOption e (some a) : Call ε σ α) s Q E ↔ Q a s :=
  Iff.rfl

@[simp] theorem ends_ofOption_none :
    Ends (ofOption e none : Call ε σ α) s Q E ↔ E (.failed e) s :=
  Iff.rfl

@[simp] theorem ends_ofExcept_ok : Ends (ofExcept (.ok a) : Call ε σ α) s Q E ↔ Q a s :=
  Iff.rfl

@[simp] theorem ends_ofExcept_error :
    Ends (ofExcept (.error e) : Call ε σ α) s Q E ↔ E (.failed e) s :=
  Iff.rfl

/-- An attempt hands an error on as a value and halts only where the call waits. -/
theorem ends_attempt {Q : Except ε α → σ → Prop} {E : Halt ε' → σ → Prop} :
    Ends (attempt c : Call ε' σ (Except ε α)) s Q E ↔
      c.Ends s (fun a t => Q (.ok a) t) (fun h t => match h with
        | .failed e => Q (.error e) t
        | .waiting => E .waiting t) := by
  simp only [Ends, attempt]
  rcases c s with _ | ⟨_ | _, _⟩ <;> rfl

theorem ends_within :
    (within e c).Ends s Q E ↔ c.Ends s Q (fun h t => match h with
      | .failed e => E (.failed e) t
      | .waiting => E (.failed e) t) := by
  simp only [Ends, within]
  rcases c s with _ | ⟨_ | _, _⟩ <;> rfl

theorem ends_zoom {view : τ → σ} {put : τ → σ → τ} {err : ε → ε'} {t : τ} {Q : α → τ → Prop}
    {E : Halt ε' → τ → Prop} :
    (zoom view put err c).Ends t Q E ↔
      c.Ends (view t) (fun a s => Q a (put t s)) (fun h s => match h with
        | .failed e => E (.failed (err e)) (put t s)
        | .waiting => E .waiting (put t s)) := by
  simp only [Ends, zoom]
  rcases c (view t) with _ | ⟨_ | _, _⟩ <;> rfl

/-- What each call of many preserves. -/
theorem ends_forM {ι : Type} {l : List ι} {f : ι → Call ε σ PUnit} {P : σ → Prop} (hs : P s)
    (hf : ∀ i ∈ l, ∀ s, P s → (f i).Ends s (fun _ => P) E) :
    (l.forM f).Ends s (fun _ => P) E := by
  induction l generalizing s with
  | nil => exact hs
  | cons i l ih =>
    rw [List.forM, ends_bind]
    exact (hf i List.mem_cons_self s hs).mono
      (fun _ _ ht => ih ht fun j hj => hf j (List.mem_cons_of_mem _ hj)) fun _ _ ht => ht

/-! ### Calls that do not wait -/

/-- The call fails or not, but it does not wait. -/
def Prompt (c : Call ε σ α) : Prop :=
  ∀ s, c.Ends s (fun _ _ => True) (fun h _ => h ≠ .waiting)

theorem Prompt.pure (a : α) : Prompt (Pure.pure a : Call ε σ α) :=
  fun _ => trivial

theorem Prompt.fail (e : ε) : Prompt (Call.fail e : Call ε σ α) :=
  fun _ => nofun

theorem Prompt.get : Prompt (MonadState.get : Call ε σ σ) :=
  fun _ => trivial

theorem Prompt.modify (g : σ → σ) : Prompt (modifyThe σ g : Call ε σ PUnit) :=
  fun _ => trivial

theorem Prompt.ofOption (o : Option α) : Prompt (Call.ofOption e o : Call ε σ α) := by
  cases o with
  | none => exact fun _ => nofun
  | some a => exact fun _ => trivial

theorem Prompt.bind (hc : Prompt c) (hf : ∀ a, Prompt (f a)) : Prompt (c >>= f) := by
  intro s
  rw [ends_bind]
  exact (hc s).mono (fun a t _ => hf a t) fun _ _ h => h

theorem Prompt.forM {ι : Type} {l : List ι} {f : ι → Call ε σ PUnit} (hf : ∀ i, Prompt (f i)) :
    Prompt (l.forM f) := by
  induction l with
  | nil => exact Prompt.pure _
  | cons i l ih => exact (hf i).bind fun _ => ih

/-! ### Relations between the states before and after -/

/-- The states before and after a call are related, however it ends. -/
def Respects (R : σ → σ → Prop) (c : Call ε σ α) : Prop :=
  ∀ s, c.Ends s (fun _ t => R s t) (fun _ t => R s t)

theorem Respects.state {R : σ → σ → Prop} (h : Respects R c) (s : σ) : R s (c.state s) :=
  (h s).state

/-- To drop what a call gives does not matter to the states before and after it. -/
theorem Respects.of_drop {R : σ → σ → Prop} {b : β}
    (h : Respects R (c >>= fun _ => Pure.pure b)) : Respects R c := by
  intro s
  have hs := h.state s
  rw [state_drop] at hs
  exact (ends_state c s).mono (fun _ _ ht => ht ▸ hs) fun _ _ ht => ht ▸ hs

theorem Respects.top (c : Call ε σ α) : Respects (fun _ _ => True) c := by
  intro s
  unfold Ends
  split <;> trivial

theorem Respects.modify {R : σ → σ → Prop} {g : σ → σ} (h : ∀ s, R s (g s)) :
    Respects R (modifyThe σ g : Call ε σ PUnit) :=
  h

theorem Respects.mono {R R' : σ → σ → Prop} (h : Respects R c) (hR : ∀ s t, R s t → R' s t) :
    Respects R' c :=
  fun s => (h s).mono (fun _ _ => hR s _) (fun _ _ => hR s _)

section

variable {R : σ → σ → Prop} [IsPreorder σ R]

theorem Respects.pure (a : α) : Respects R (Pure.pure a : Call ε σ α) :=
  fun s => refl_of R s

theorem Respects.throw (h : Halt ε) : Respects R (MonadExcept.throw h : Call ε σ α) :=
  fun s => refl_of R s

theorem Respects.fail (e : ε) : Respects R (Call.fail e : Call ε σ α) :=
  fun s => refl_of R s

theorem Respects.get : Respects R (MonadState.get : Call ε σ σ) :=
  fun s => refl_of R s

theorem Respects.ofOption (o : Option α) : Respects R (Call.ofOption e o : Call ε σ α) := by
  cases o <;> exact fun s => refl_of R s

theorem Respects.ofExcept (r : Except ε α) : Respects R (Call.ofExcept r : Call ε σ α) := by
  cases r <;> exact fun s => refl_of R s

theorem Respects.bind (hc : Respects R c) (hf : ∀ a, Respects R (f a)) :
    Respects R (c >>= f) := by
  intro s
  rw [ends_bind]
  exact (hc s).mono
    (fun a t hst => (hf a t).mono (fun _ _ => trans_of R hst) (fun _ _ => trans_of R hst))
    (fun _ _ hst => hst)

theorem Respects.forM {ι : Type} {l : List ι} {f : ι → Call ε σ PUnit}
    (hf : ∀ i ∈ l, Respects R (f i)) : Respects R (l.forM f) := by
  induction l with
  | nil => exact Respects.pure _
  | cons i l ih =>
    rw [List.forM]
    exact (hf i List.mem_cons_self).bind fun _ => ih fun j hj => hf j (List.mem_cons_of_mem _ hj)

end

theorem Respects.attempt {R : σ → σ → Prop} (hc : Respects R c) :
    Respects R (Call.attempt c : Call ε' σ (Except ε α)) := by
  intro s
  rw [ends_attempt]
  refine (hc s).mono (fun _ _ h => h) fun h t hst => ?_
  cases h <;> exact hst

theorem Respects.within {R : σ → σ → Prop} (hc : Respects R c) :
    Respects R (Call.within e c) := by
  intro s
  rw [ends_within]
  refine (hc s).mono (fun _ _ h => h) fun h t hst => ?_
  cases h <;> exact hst

theorem Respects.zoom {view : τ → σ} {put : τ → σ → τ} {err : ε → ε'} {R : σ → σ → Prop}
    {R' : τ → τ → Prop} (hc : Respects R c) (hR : ∀ t s, R (view t) s → R' t (put t s)) :
    Respects R' (Call.zoom view put err c) := by
  intro t
  rw [ends_zoom]
  refine (hc (view t)).mono (fun _ s h => hR t s h) fun h s hst => ?_
  cases h <;> exact hR t s hst

/-! ### Parts of the state that a call does not look at -/

/-- What a call gives, with the state that it leaves changed. -/
def Result.leave (f : σ → σ) : EStateM.Result (Halt ε) σ α → EStateM.Result (Halt ε) σ α
  | .ok a t => .ok a (f t)
  | .error h t => .error h (f t)

/-- It does not matter to a call whether the state is changed before or after it. -/
def Commutes (f : σ → σ) (c : Call ε σ α) : Prop :=
  ∀ s, c (f s) = Result.leave f (c s)

variable {f : σ → σ}

theorem Commutes.state (h : Commutes f c) (s : σ) : c.state (f s) = f (c.state s) := by
  rw [Call.state, Call.state, h s]
  cases c s <;> rfl

theorem Commutes.pure (a : α) : Commutes f (Pure.pure a : Call ε σ α) :=
  fun _ => rfl

theorem Commutes.fail (e : ε) : Commutes f (Call.fail e : Call ε σ α) :=
  fun _ => rfl

theorem Commutes.modify {g : σ → σ} (h : ∀ s, g (f s) = f (g s)) :
    Commutes f (modifyThe σ g : Call ε σ PUnit) := by
  intro s
  exact congrArg (EStateM.Result.ok PUnit.unit) (h s)

theorem Commutes.ofOption {e : ε} (o : Option α) : Commutes f (Call.ofOption e o : Call ε σ α) := by
  cases o <;> exact fun _ => rfl

theorem Commutes.ofExcept (r : Except ε α) : Commutes f (Call.ofExcept r : Call ε σ α) := by
  cases r <;> exact fun _ => rfl

theorem Commutes.bind {d : α → Call ε σ β} (hc : Commutes f c) (hd : ∀ a, Commutes f (d a)) :
    Commutes f (c >>= d) := by
  intro s
  simp only [Bind.bind, EStateM.bind, hc s]
  cases c s with
  | ok a t => exact hd a t
  | error h t => rfl

/-- What a call looks up is not changed. -/
theorem Commutes.get_bind {d : σ → Call ε σ β} (hd : ∀ s, d (f s) = d s)
    (h : ∀ s, Commutes f (d s)) : Commutes f (MonadState.get >>= d) := by
  intro s
  exact (congrFun (hd s) (f s)).trans (h s s)

theorem Commutes.attempt (hc : Commutes f c) :
    Commutes f (Call.attempt c : Call ε' σ (Except ε α)) := by
  intro s
  simp only [Call.attempt, hc s]
  rcases c s with _ | ⟨_ | _, _⟩ <;> rfl

theorem Commutes.zoom {view : τ → σ} {put : τ → σ → τ} {err : ε → ε'} {g : τ → τ}
    (hview : ∀ t, view (g t) = view t) (hput : ∀ t s, put (g t) s = g (put t s)) :
    Commutes g (Call.zoom view put err c) := by
  intro t
  simp only [Call.zoom, hview]
  rcases c (view t) with _ | ⟨_ | _, _⟩ <;> simp only [Result.leave, hput]

theorem Commutes.forM {ι : Type} {l : List ι} {d : ι → Call ε σ PUnit}
    (h : ∀ i, Commutes f (d i)) : Commutes f (l.forM d) := by
  induction l with
  | nil => exact .pure _
  | cons i l ih => exact (h i).bind fun _ => ih

/-- A change does not matter at all to a call that ends, if it is undone right behind it. -/
theorem Commutes.bind_modify {g : σ → σ} (h : Commutes f c) (hg : ∀ t, g (f t) = g t)
    (hc : c.Ends s (fun _ _ => True) (fun _ _ => False)) :
    (c >>= fun _ => modifyThe σ g : Call ε σ PUnit) (f s) = (c >>= fun _ => modifyThe σ g) s := by
  unfold Ends at hc
  simp only [Bind.bind, EStateM.bind, h s]
  rcases hcs : c s with ⟨a, t⟩ | ⟨e, t⟩
  · exact congrArg (EStateM.Result.ok PUnit.unit) (hg t)
  · rw [hcs] at hc
    exact hc.elim

end Tether.Call
