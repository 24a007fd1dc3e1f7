import Mathlib.Logic.Basic

/-!
# Actions that may fail, and their triples

An action changes a state and returns a value or fails; what it changed before it failed
stays changed. `Triple P m Q E` says that from a state in `P` the action returns a value and
a state in `Q`, or fails in a state in `E`. The rules follow the syntax of `do` blocks: one
for each way an action is put together, and the rule of consequence.
-/

/-- An action on states `σ` that returns an `α` or fails with an `ε`. -/
def StateAction (σ ε α : Type) := σ → Except ε α × σ

namespace StateAction

variable {σ ε ε' α β : Type}

instance : Monad (StateAction σ ε) where
  pure a := fun s => (.ok a, s)
  bind m f := fun s =>
    match m s with
    | (.ok a, s') => f a s'
    | (.error e, s') => (.error e, s')

def fail (e : ε) : StateAction σ ε α := fun s => (.error e, s)

def get : StateAction σ ε σ := fun s => (.ok s, s)

def modify (f : σ → σ) : StateAction σ ε Unit := fun s => (.ok (), f s)

/-- The value, or a failure when there is none. -/
def ofOption (o : Option α) (e : ε) : StateAction σ ε α :=
  match o with
  | some a => pure a
  | none => fail e

/-- Fail unless the test succeeds. -/
def ensure (b : Bool) (e : ε) : StateAction σ ε Unit := if b then pure () else fail e

/-- Go on after a failure: the result says whether there was one. -/
def attempt (m : StateAction σ ε α) : StateAction σ ε' (Option α) := fun s =>
  match m s with
  | (.ok a, s') => (.ok (some a), s')
  | (.error _, s') => (.ok none, s')

/-- The same action with its error translated. -/
def mapErr (f : ε → ε') (m : StateAction σ ε α) : StateAction σ ε' α := fun s =>
  match m s with
  | (.ok a, s') => (.ok a, s')
  | (.error e, s') => (.error (f e), s')

/-- One action after the other, for each element of a list. -/
def forEach (l : List β) (f : β → StateAction σ ε Unit) : StateAction σ ε Unit :=
  match l with
  | [] => pure ()
  | b :: bs => do
    f b
    forEach bs f

theorem bind_ok {m : StateAction σ ε α} {f : α → StateAction σ ε β} {a : α} {s s' : σ}
    (h : m s = (.ok a, s')) : (m >>= f) s = f a s' := by
  change (match m s with
    | (.ok a, s') => f a s'
    | (.error e, s') => (.error e, s')) = _
  rw [h]

theorem bind_error {m : StateAction σ ε α} {f : α → StateAction σ ε β} {e : ε} {s s' : σ}
    (h : m s = (.error e, s')) : (m >>= f) s = (.error e, s') := by
  change (match m s with
    | (.ok a, s') => f a s'
    | (.error e, s') => (.error e, s')) = _
  rw [h]

/-- A sequence that returns has run both parts. -/
theorem ok_of_bind {m : StateAction σ ε α} {f : α → StateAction σ ε β} {b : β} {s s'' : σ}
    (h : (m >>= f) s = (.ok b, s'')) : ∃ a s', m s = (.ok a, s') ∧ f a s' = (.ok b, s'') := by
  cases hm : m s with
  | mk r s' =>
    cases r with
    | ok a => exact ⟨a, s', rfl, (bind_ok hm).symm.trans h⟩
    | error e => cases (bind_error hm).symm.trans h

theorem forEach_append (l l' : List β) (f : β → StateAction σ ε Unit) :
    forEach (l ++ l') f = forEach l f >>= fun _ => forEach l' f := by
  funext s
  induction l generalizing s with
  | nil => rfl
  | cons b l ih =>
    have hcons (l : List β) : forEach (b :: l) f = f b >>= fun _ => forEach l f := rfl
    rw [List.cons_append, hcons, hcons]
    cases hb : f b s with
    | mk r s' =>
      cases r with
      | ok a =>
        rw [bind_ok hb, ih]
        cases hl : forEach l f s' with
        | mk r' s'' =>
          cases r' with
          | ok a' => rw [bind_ok hl, bind_ok ((bind_ok hb).trans hl)]
          | error e => rw [bind_error hl, bind_error ((bind_ok hb).trans hl)]
      | error e => rw [bind_error hb, bind_error (bind_error hb)]

theorem forEach_singleton (b : β) (f : β → StateAction σ ε Unit) : forEach [b] f = f b := by
  have hcons : forEach [b] f = f b >>= fun _ => pure () := rfl
  funext s
  rw [hcons]
  cases hb : f b s with
  | mk r s' =>
    cases r with
    | ok a => exact bind_ok hb
    | error e => exact bind_error hb

theorem forEach_map {γ : Type} (l : List γ) (g : γ → β) (f : β → StateAction σ ε Unit) :
    forEach (l.map g) f = forEach l fun c => f (g c) := by
  induction l with
  | nil => rfl
  | cons c l ih =>
    rw [List.map_cons, forEach, ih]
    rfl

theorem forEach_flatMap {γ : Type} (l : List γ) (g : γ → List β) (f : β → StateAction σ ε Unit) :
    forEach (l.flatMap g) f = forEach l fun c => forEach (g c) f := by
  induction l with
  | nil => rfl
  | cons c l ih =>
    rw [List.flatMap_cons, forEach_append, ih]
    rfl

/-- What comes behind an attempt comes in any case. -/
theorem bind_attempt (m : StateAction σ ε α) (f : Option α → StateAction σ ε' β) (s : σ) :
    (m.attempt >>= f) s = f (m s).1.toOption (m s).2 := by
  cases h : m s with
  | mk r s' =>
    cases r with
    | ok a => exact bind_ok (by simp only [attempt, h]; rfl)
    | error e => exact bind_ok (by simp only [attempt, h]; rfl)

/-- What comes behind an action and does not touch the state. -/
theorem snd_bind_pure (m : StateAction σ ε α) (f : α → β) (s : σ) :
    ((m >>= fun a => pure (f a)) s).2 = (m s).2 := by
  change (match m s with
    | (.ok a, s') => (pure (f a) : StateAction σ ε β) s'
    | (.error e, s') => (.error e, s')).2 = (m s).2
  cases m s with
  | mk r s' => cases r <;> rfl

theorem snd_attempt (m : StateAction σ ε α) (s : σ) :
    ((m.attempt : StateAction σ ε' (Option α)) s).2 = (m s).2 := by
  unfold attempt
  cases m s with
  | mk r s' => cases r <;> rfl

/-- An attempt does not fail. -/
theorem attempt_ok (m : StateAction σ ε α) (s : σ) :
    ∃ o, ((m.attempt : StateAction σ ε' (Option α)) s).1 = .ok o := by
  unfold attempt
  cases m s with
  | mk r s' =>
    cases r with
    | ok a => exact ⟨some a, rfl⟩
    | error e => exact ⟨none, rfl⟩

theorem snd_mapErr (f : ε → ε') (m : StateAction σ ε α) (s : σ) : ((m.mapErr f) s).2 = (m s).2 := by
  unfold mapErr
  cases m s with
  | mk r s' => cases r <;> rfl

/-! ## Triples -/

/-- What a result has to satisfy. -/
def Post (Q : α → σ → Prop) (E : σ → Prop) : Except ε α × σ → Prop
  | (.ok a, s) => Q a s
  | (.error _, s) => E s

/-- From `P`, return in `Q` or fail in `E`. -/
structure Triple (P : σ → Prop) (m : StateAction σ ε α) (Q : α → σ → Prop) (E : σ → Prop) : Prop where
  post : ∀ s, P s → Post Q E (m s)

/-- The action keeps the property, whether it returns or fails. -/
abbrev Keeps (I : σ → Prop) (m : StateAction σ ε α) : Prop := Triple I m (fun _ => I) I

section Rules

variable {P P' I : σ → Prop} {Q Q' : α → σ → Prop} {R : β → σ → Prop} {E E' : σ → Prop}

/-- The rule of consequence. -/
theorem Triple.weaken {m : StateAction σ ε α} (h : Triple P' m Q' E') (hP : ∀ s, P s → P' s)
    (hQ : ∀ a s, Q' a s → Q a s) (hE : ∀ s, E' s → E s) : Triple P m Q E := by
  refine ⟨fun s hs => ?_⟩
  have hm := h.post s (hP s hs)
  revert hm
  cases m s with
  | mk r s' =>
    cases r with
    | ok a => exact hQ a s'
    | error e => exact hE s'

/-- A fact in the precondition that does not depend on the state is a hypothesis. -/
theorem Triple.assume {m : StateAction σ ε α} {φ : Prop} (h : φ → Triple P m Q E) :
    Triple (fun s => φ ∧ P s) m Q E := ⟨fun s hs => (h hs.1).post s hs.2⟩

theorem Triple.pure {a : α} (h : ∀ s, P s → Q a s) :
    Triple P (Pure.pure a : StateAction σ ε α) Q E := ⟨h⟩

theorem Triple.fail {e : ε} (h : ∀ s, P s → E s) : Triple P (fail e : StateAction σ ε α) Q E := ⟨h⟩

theorem Triple.get {Q : σ → σ → Prop} (h : ∀ s, P s → Q s s) :
    Triple P (get : StateAction σ ε σ) Q E := ⟨h⟩

theorem Triple.modify {f : σ → σ} {Q : Unit → σ → Prop} (h : ∀ s, P s → Q () (f s)) :
    Triple P (modify f : StateAction σ ε Unit) Q E := ⟨h⟩

theorem Triple.bind {m : StateAction σ ε α} {f : α → StateAction σ ε β} (hm : Triple P m Q E)
    (hf : ∀ a, Triple (Q a) (f a) R E) : Triple P (m >>= f) R E := by
  refine ⟨fun s hs => ?_⟩
  have hpost := hm.post s hs
  change Post R E (match m s with
    | (.ok a, s') => f a s'
    | (.error e, s') => (.error e, s'))
  revert hpost
  cases m s with
  | mk r s' =>
    cases r with
    | ok a => exact (hf a).post s'
    | error e => exact fun h => h

theorem Triple.ite {c : Prop} [Decidable c] {m m' : StateAction σ ε α} (ht : c → Triple P m Q E)
    (hf : ¬c → Triple P m' Q E) : Triple P (if c then m else m') Q E := by
  by_cases hc : c
  · rw [if_pos hc]
    exact ht hc
  · rw [if_neg hc]
    exact hf hc

theorem Triple.ofOption {o : Option α} {e : ε} (h : ∀ a, o = some a → ∀ s, P s → Q a s)
    (hE : ∀ s, P s → E s) : Triple P (ofOption o e) Q E := by
  cases o with
  | none => exact .fail hE
  | some a => exact .pure (h a rfl)

theorem Triple.ensure {b : Bool} {e : ε} {Q : Unit → σ → Prop}
    (h : b = true → ∀ s, P s → Q () s) (hE : ∀ s, P s → E s) :
    Triple P (ensure b e) Q E := by
  cases b with
  | false => exact .fail hE
  | true => exact .pure (h rfl)

theorem Triple.attempt {m : StateAction σ ε α} {Q : Option α → σ → Prop}
    (h : Triple P m (fun a s => Q (some a) s) (Q none)) :
    Triple P (m.attempt : StateAction σ ε' (Option α)) Q E' := by
  refine ⟨fun s hs => ?_⟩
  have hm := h.post s hs
  revert hm
  unfold StateAction.attempt
  cases m s with
  | mk r s' => cases r <;> exact fun h => h

theorem Triple.mapErr {m : StateAction σ ε α} {f : ε → ε'} (h : Triple P m Q E) :
    Triple P (m.mapErr f) Q E := by
  refine ⟨fun s hs => ?_⟩
  have hm := h.post s hs
  revert hm
  unfold StateAction.mapErr
  cases m s with
  | mk r s' => cases r <;> exact fun h => h

theorem Keeps.bind {m : StateAction σ ε α} {f : α → StateAction σ ε β} (hm : Keeps I m)
    (hf : ∀ a, Keeps I (f a)) : Keeps I (m >>= f) := Triple.bind hm hf

theorem Keeps.pure {a : α} : Keeps I (Pure.pure a : StateAction σ ε α) := Triple.pure fun _ h => h

theorem Keeps.fail {e : ε} : Keeps I (StateAction.fail e : StateAction σ ε α) := Triple.fail fun _ h => h

theorem Keeps.get : Keeps I (StateAction.get : StateAction σ ε σ) := Triple.get fun _ h => h

theorem Keeps.modify {f : σ → σ} (h : ∀ s, I s → I (f s)) :
    Keeps I (StateAction.modify f : StateAction σ ε Unit) := Triple.modify h

theorem Keeps.ofOption {o : Option α} {e : ε} :
    Keeps I (StateAction.ofOption o e : StateAction σ ε α) :=
  Triple.ofOption (fun _ _ _ h => h) fun _ h => h

/-- A value that may be missing, and what is done with it. -/
theorem Keeps.bindOption {o : Option α} {e : ε} {f : α → StateAction σ ε β}
    (h : ∀ a, o = some a → Keeps I (f a)) : Keeps I (StateAction.ofOption o e >>= f) := by
  cases o with
  | none => exact Keeps.fail
  | some a => exact h a rfl

theorem Keeps.ensure {b : Bool} {e : ε} : Keeps I (StateAction.ensure b e : StateAction σ ε Unit) :=
  Triple.ensure (fun _ _ h => h) fun _ h => h

theorem Keeps.attempt {m : StateAction σ ε α} (h : Keeps I m) :
    Keeps I (m.attempt : StateAction σ ε' (Option α)) := Triple.attempt h

theorem Keeps.mapErr {m : StateAction σ ε α} {f : ε → ε'} (h : Keeps I m) :
    Keeps I (m.mapErr f) := Triple.mapErr h

theorem Keeps.forEach {l : List β} {f : β → StateAction σ ε Unit} (h : ∀ b ∈ l, Keeps I (f b)) :
    Keeps I (forEach l f) := by
  induction l with
  | nil => exact Keeps.pure
  | cons b bs ih =>
    refine Keeps.bind (h b List.mem_cons_self) fun _ => ?_
    exact ih fun c hc => h c (List.mem_cons_of_mem _ hc)

/-- A postcondition that says the same of both ends says it of the state left behind. -/
theorem Triple.snd {m : StateAction σ ε α} (h : Triple P m (fun _ => E) E) {s : σ} (hs : P s) :
    E (m s).2 := by
  have hm := h.post s hs
  revert hm
  cases m s with
  | mk r s' => cases r <;> exact fun h => h

/-- What the postcondition says of an action that returned. -/
theorem Triple.fst {m : StateAction σ ε α} (h : Triple P m Q E) {s : σ} (hs : P s) {a : α}
    (ha : (m s).1 = .ok a) : Q a (m s).2 := by
  have hm := h.post s hs
  revert hm ha
  cases m s with
  | mk r s' =>
    cases r with
    | ok b =>
      intro ha hb
      cases ha
      exact hb
    | error e => exact fun ha => nomatch ha

theorem Triple.of_snd {m : StateAction σ ε α} (h : ∀ s, P s → E (m s).2) :
    Triple P m (fun _ => E) E := by
  refine ⟨fun s hs => ?_⟩
  have hm := h s hs
  revert hm
  cases m s with
  | mk r s' => cases r <;> exact fun h => h

/-- What an action that keeps `I` leaves behind. -/
theorem Keeps.snd {m : StateAction σ ε α} (h : Keeps I m) {s : σ} (hs : I s) : I (m s).2 :=
  Triple.snd h hs

end Rules

/-! ## Two runs side by side -/

/-- From related states the action returns or fails alike, and leaves related states. -/
structure Lockstep (R : σ → σ → Prop) (m : StateAction σ ε α) : Prop where
  alike : ∀ s t, R s t → (m s).1 = (m t).1 ∧ R (m s).2 (m t).2

section Side

variable {R : σ → σ → Prop}

theorem Lockstep.pure {a : α} : Lockstep R (Pure.pure a : StateAction σ ε α) :=
  ⟨fun _ _ h => ⟨rfl, h⟩⟩

theorem Lockstep.fail {e : ε} : Lockstep R (StateAction.fail e : StateAction σ ε α) :=
  ⟨fun _ _ h => ⟨rfl, h⟩⟩

theorem Lockstep.modify {f : σ → σ} (h : ∀ s t, R s t → R (f s) (f t)) :
    Lockstep R (StateAction.modify f : StateAction σ ε Unit) :=
  ⟨fun s t hst => ⟨rfl, h s t hst⟩⟩

theorem Lockstep.ofOption {o : Option α} {e : ε} :
    Lockstep R (StateAction.ofOption o e : StateAction σ ε α) := by
  cases o with
  | none => exact .fail
  | some a => exact .pure

theorem Lockstep.bind {m : StateAction σ ε α} {f : α → StateAction σ ε β} (hm : Lockstep R m)
    (hf : ∀ a, Lockstep R (f a)) : Lockstep R (m >>= f) := by
  refine ⟨fun s t hst => ?_⟩
  obtain ⟨hfst, hsnd⟩ := hm.alike s t hst
  cases hs : m s with
  | mk r s' =>
    cases ht : m t with
    | mk r' t' =>
      rw [hs, ht] at hfst hsnd
      cases hfst
      cases r with
      | ok a =>
        rw [bind_ok hs, bind_ok ht]
        exact (hf a).alike s' t' hsnd
      | error e =>
        rw [bind_error hs, bind_error ht]
        exact ⟨rfl, hsnd⟩

/-- Reading the state, when what is done with it is the same for related states. -/
theorem Lockstep.bindGet {f : σ → StateAction σ ε β} (heq : ∀ s t, R s t → f s = f t)
    (hf : ∀ s, Lockstep R (f s)) : Lockstep R (StateAction.get >>= f) := by
  refine ⟨fun s t hst => ?_⟩
  change (f s s).1 = (f t t).1 ∧ R (f s s).2 (f t t).2
  rw [heq s t hst]
  exact (hf t).alike s t hst

theorem Lockstep.attempt {m : StateAction σ ε α} (h : Lockstep R m) :
    Lockstep R (m.attempt : StateAction σ ε' (Option α)) := by
  refine ⟨fun s t hst => ?_⟩
  obtain ⟨hfst, hsnd⟩ := h.alike s t hst
  unfold StateAction.attempt
  cases hs : m s with
  | mk r s' =>
    cases ht : m t with
    | mk r' t' =>
      rw [hs, ht] at hfst hsnd
      cases hfst
      cases r <;> exact ⟨rfl, hsnd⟩

theorem Lockstep.mapErr {m : StateAction σ ε α} {f : ε → ε'} (h : Lockstep R m) :
    Lockstep R (m.mapErr f) := by
  refine ⟨fun s t hst => ?_⟩
  obtain ⟨hfst, hsnd⟩ := h.alike s t hst
  unfold StateAction.mapErr
  cases hs : m s with
  | mk r s' =>
    cases ht : m t with
    | mk r' t' =>
      rw [hs, ht] at hfst hsnd
      cases hfst
      cases r <;> exact ⟨rfl, hsnd⟩

theorem Lockstep.ite {c : Prop} [Decidable c] {m m' : StateAction σ ε α} (hm : Lockstep R m)
    (hm' : Lockstep R m') : Lockstep R (if c then m else m') := by
  split
  · exact hm
  · exact hm'

end Side

end StateAction
