import Mathlib

/-! Scripts that read and write globals `σ` and may raise an `ε`. A raised exception keeps
what was written before it. The judgements: which exceptions a script can raise, what it returns
whatever the globals are, and that two scripts cannot be told apart by an observer of the globals. -/
namespace Library

def Script (ε σ α : Type) := σ → Except ε α × σ

namespace Script

variable {ε σ α β : Type}

instance : Monad (Script ε σ) where
  pure a := fun s => (.ok a, s)
  bind m f := fun s =>
    match m s with
    | (.ok a, s') => f a s'
    | (.error e, s') => (.error e, s')

def raise (e : ε) : Script ε σ α := fun s => (.error e, s)

def get : Script ε σ σ := fun s => (.ok s, s)

def modify (f : σ → σ) : Script ε σ Unit := fun s => (.ok (), f s)

/-- `try: m except: h`, where `h` may let the exception through by raising it again. -/
def catching (m : Script ε σ α) (h : ε → Script ε σ α) : Script ε σ α := fun s =>
  match m s with
  | (.ok a, s') => (.ok a, s')
  | (.error e, s') => h e s'

/-- `none` is raised as `e`. -/
def ofOption (e : ε) : Option α → Script ε σ α
  | some a => pure a
  | none => raise e

section
variable {m : Script ε σ α} {f : α → Script ε σ β} {s s' s'' : σ} {a : α} {b : β} {e : ε}

@[simp] theorem pure_apply : (pure a : Script ε σ α) s = (.ok a, s) := rfl

@[simp] theorem raise_apply : (raise e : Script ε σ α) s = (.error e, s) := rfl

theorem bind_apply : (m >>= f) s = match m s with
    | (.ok a, s') => f a s'
    | (.error e, s') => (.error e, s') := rfl

theorem bind_ok (h : m s = (.ok a, s')) : (m >>= f) s = f a s' := by rw [bind_apply, h]

theorem bind_error (h : m s = (.error e, s')) : (m >>= f) s = (.error e, s') := by
  rw [bind_apply, h]

@[simp] theorem pure_bind {k : α → Script ε σ β} : ((pure a : Script ε σ α) >>= k) s = k a s := rfl

theorem pure_bind_eq {k : α → Script ε σ β} : ((pure a : Script ε σ α) >>= k) = k a := rfl

@[simp] theorem raise_bind {k : α → Script ε σ β} :
    ((raise e : Script ε σ α) >>= k) s = (.error e, s) := rfl

/-- A sequence that returns has returned from both parts. -/
theorem of_bind_ok (h : (m >>= f) s = (.ok b, s'')) :
    ∃ a s', m s = (.ok a, s') ∧ f a s' = (.ok b, s'') := by
  rw [bind_apply] at h
  split at h
  · next a s' hm => exact ⟨a, s', hm, h⟩
  · cases h

theorem ofOption_ok {o : Option α} (h : (ofOption e o : Script ε σ α) s = (.ok a, s')) :
    o = some a ∧ s' = s := by
  cases o with
  | none => cases h
  | some b =>
    cases h
    exact ⟨rfl, rfl⟩

theorem get_ok {t : σ} (h : (get : Script ε σ σ) s = (.ok t, s')) : t = s ∧ s' = s := by
  cases h
  exact ⟨rfl, rfl⟩

end

/-- Every exception `m` can raise satisfies `P`. -/
structure Raises (P : ε → Prop) (m : Script ε σ α) : Prop where
  of_error : ∀ s e, (m s).1 = .error e → P e

section
variable {P : ε → Prop} {m : Script ε σ α} {f : α → Script ε σ β}

theorem raises_pure (a : α) : Raises P (pure a : Script ε σ α) := by
  constructor
  intro s e h
  cases h

theorem raises_modify (g : σ → σ) : Raises P (modify g : Script ε σ Unit) := by
  constructor
  intro s e h
  cases h

theorem raises_raise {e : ε} (h : P e) : Raises P (raise e : Script ε σ α) := by
  constructor
  intro s e' he
  cases he
  exact h

theorem raises_bind (hm : Raises P m) (hf : ∀ a, Raises P (f a)) : Raises P (m >>= f) := by
  constructor
  intro s e h
  rw [bind_apply] at h
  split at h
  · next a s' _ => exact (hf a).of_error s' e h
  · next e' s' hm' =>
    cases h
    exact hm.of_error s e (by rw [hm'])

end

/-- From all globals, the script returns `r`, or raises when `r` is `none`. -/
def Computes (m : Script ε σ α) (r : Option α) : Prop := ∀ s, (m s).1.toOption = r

section
variable {m : Script ε σ α} {f : α → Script ε σ β} {r : Option α} {t : α → Option β}

theorem computes_pure (a : α) : Computes (pure a : Script ε σ α) (some a) := fun _ => rfl

theorem computes_raise (e : ε) : Computes (raise e : Script ε σ α) none := fun _ => rfl

theorem computes_modify (g : σ → σ) : Computes (modify g : Script ε σ Unit) (some ()) := fun _ => rfl

theorem computes_ofOption (e : ε) (r : Option α) : Computes (ofOption e r : Script ε σ α) r := by
  cases r with
  | none => exact computes_raise e
  | some a => exact computes_pure a

/-- What follows is only asked about the results that there are, in the form `g c`. -/
theorem computes_bind_map {γ : Type} {g : γ → α} {r : Option γ} {t : γ → Option β}
    (hm : Computes m (r.map g)) (hf : ∀ c, r = some c → Computes (f (g c)) (t c)) :
    Computes (m >>= f) (r.bind t) := by
  intro s
  have hr := hm s
  rw [bind_apply]
  rcases hms : m s with ⟨e | a, s'⟩
  · rw [hms] at hr
    rw [Option.map_eq_none_iff.mp hr.symm]
    rfl
  · rw [hms] at hr
    obtain ⟨c, hc, rfl⟩ := Option.map_eq_some_iff.mp hr.symm
    rw [hc]
    exact hf c hc s'

theorem computes_bind (hm : Computes m r) (hf : ∀ a, Computes (f a) (t a)) :
    Computes (m >>= f) (r.bind t) := by
  apply computes_bind_map (g := id)
  · rwa [Option.map_id]
  · exact fun a _ => hf a

/-- A script that always returns `a`. -/
theorem computes_seq {a : α} {u : Option β} (hm : Computes m (some a)) (hf : Computes (f a) u) :
    Computes (m >>= f) u := by
  refine computes_bind_map (g := fun _ : Unit => a) (r := some ()) (t := fun _ => u) hm ?_
  exact fun _ _ => hf

/-- The handler lets the exceptions through that there are. -/
theorem computes_catching {P : ε → Prop} {h : ε → Script ε σ α} (hm : Computes m r)
    (hraises : Raises P m) (hh : ∀ e, P e → Computes (h e) none) : Computes (m.catching h) r := by
  intro s
  have hr := hm s
  rw [catching]
  rcases hms : m s with ⟨e | a, s'⟩
  · rw [hms] at hr
    rw [← hr]
    exact hh e (hraises.of_error s e (by rw [hms])) s'
  · rwa [hms] at hr

theorem Computes.isOk_iff {a : α} (h : Computes m r) {s : σ} :
    (∃ s', m s = (.ok a, s')) ↔ r = some a := by
  rw [← h s]
  rcases m s with ⟨e | b, s'⟩
  · simp [Except.toOption]
  · simp [Except.toOption]

end

/-- A script that does not look at the globals: what it returns or raises is fixed, and so is
the update it makes, which is one of `T`. -/
structure Oblivious (T : (σ → σ) → Prop) (m : Script ε σ α) : Prop where
  run : ∃ r f, T f ∧ ∀ s, m s = (r, f s)

/-- Updates that contain doing nothing and are closed under sequencing. -/
structure Updates (T : (σ → σ) → Prop) : Prop where
  id : T id
  comp : ∀ {f g : σ → σ}, T f → T g → T (g ∘ f)

section
variable {T : (σ → σ) → Prop} {m : Script ε σ α} {f : α → Script ε σ β}

theorem oblivious_pure (hT : Updates T) (a : α) : Oblivious T (pure a : Script ε σ α) :=
  ⟨.ok a, id, hT.id, fun _ => rfl⟩

theorem oblivious_raise (hT : Updates T) (e : ε) : Oblivious T (raise e : Script ε σ α) :=
  ⟨.error e, id, hT.id, fun _ => rfl⟩

theorem oblivious_modify {g : σ → σ} (hg : T g) : Oblivious T (modify g : Script ε σ Unit) :=
  ⟨.ok (), g, hg, fun _ => rfl⟩

theorem oblivious_bind (hT : Updates T) (hm : Oblivious T m) (hf : ∀ a, Oblivious T (f a)) :
    Oblivious T (m >>= f) := by
  obtain ⟨r, u, hu, hr⟩ := hm.run
  cases r with
  | error e =>
    refine ⟨.error e, u, hu, fun s => ?_⟩
    exact bind_error (hr s)
  | ok a =>
    obtain ⟨r', u', hu', hr'⟩ := (hf a).run
    refine ⟨r', u' ∘ u, hT.comp hu hu', fun s => ?_⟩
    exact (bind_ok (hr s)).trans (hr' _)

end

/-- From related globals the two scripts return or raise the same, and the globals stay
related. -/
structure Agree (R : σ → σ → Prop) (m₁ m₂ : Script ε σ α) : Prop where
  of_related : ∀ s₁ s₂, R s₁ s₂ → (m₁ s₁).1 = (m₂ s₂).1 ∧ R (m₁ s₁).2 (m₂ s₂).2

section
variable {R : σ → σ → Prop} {m₁ m₂ : Script ε σ α} {f₁ f₂ : α → Script ε σ β}

theorem agree_pure (a : α) : Agree R (pure a : Script ε σ α) (pure a) :=
  ⟨fun _ _ h => ⟨rfl, h⟩⟩

theorem agree_raise (e : ε) : Agree R (raise e : Script ε σ α) (raise e) :=
  ⟨fun _ _ h => ⟨rfl, h⟩⟩

theorem agree_modify {g₁ g₂ : σ → σ} (hg : ∀ s₁ s₂, R s₁ s₂ → R (g₁ s₁) (g₂ s₂)) :
    Agree R (modify g₁ : Script ε σ Unit) (modify g₂) :=
  ⟨fun s₁ s₂ h => ⟨rfl, hg s₁ s₂ h⟩⟩

/-- An oblivious script agrees with itself. -/
theorem Oblivious.agree {T : (σ → σ) → Prop} {m : Script ε σ α} (hm : Oblivious T m)
    (hT : ∀ f s₁ s₂, T f → R s₁ s₂ → R (f s₁) (f s₂)) : Agree R m m := by
  obtain ⟨r, f, hf, hr⟩ := hm.run
  constructor
  intro s₁ s₂ h
  rw [hr, hr]
  exact ⟨rfl, hT f s₁ s₂ hf h⟩

theorem agree_bind (hm : Agree R m₁ m₂) (hf : ∀ a, Agree R (f₁ a) (f₂ a)) :
    Agree R (m₁ >>= f₁) (m₂ >>= f₂) := by
  constructor
  intro s₁ s₂ h
  obtain ⟨he, hr⟩ := hm.of_related s₁ s₂ h
  rw [bind_apply, bind_apply]
  rcases h₁ : m₁ s₁ with ⟨_ | a, t₁⟩ <;> rcases h₂ : m₂ s₂ with ⟨_ | b, t₂⟩ <;>
    simp only [h₁, h₂, Except.ok.injEq, Except.error.injEq, reduceCtorEq] at he hr
  · exact ⟨by rw [he], hr⟩
  · subst he
    exact (hf a).of_related t₁ t₂ hr

theorem agree_catching {k₁ k₂ : ε → Script ε σ α} (hm : Agree R m₁ m₂)
    (hk : ∀ e, Agree R (k₁ e) (k₂ e)) : Agree R (m₁.catching k₁) (m₂.catching k₂) := by
  constructor
  intro s₁ s₂ h
  obtain ⟨he, hr⟩ := hm.of_related s₁ s₂ h
  rw [catching, catching]
  rcases h₁ : m₁ s₁ with ⟨e | a, t₁⟩ <;> rcases h₂ : m₂ s₂ with ⟨e' | b, t₂⟩ <;>
    simp only [h₁, h₂, Except.ok.injEq, Except.error.injEq, reduceCtorEq] at he hr
  · subst he
    exact (hk e).of_related t₁ t₂ hr
  · exact ⟨by rw [he], hr⟩

end
end Script
end Library
