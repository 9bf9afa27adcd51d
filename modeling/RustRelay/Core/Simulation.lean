import RustRelay.Core.Run

/-!
# Labelled simulations

A machine may take many steps where another takes one. Some steps of the first carry a label, the
step of the second that they stand for; the others carry none.

* `trace` — the labels of a run.
* `Simulation` — a labelled step is followed by the step of its label, any other by none.
* `Simulation.exec` — a run is followed by its trace.
* `Simulation.along` — conditions on the labels of a run hold along its trace.

Nothing here names a program: both machines and the labels are arbitrary.
-/

namespace Machine

variable {σ α τ β : Type*}

/-- The labels of the run of `as` from `s`. -/
def trace (step : σ → α → Option σ) (label : σ → α → Option β) (s : σ) : List α → List β
  | [] => []
  | a :: as => match step s a with
    | none => []
    | some t => (label s a).toList ++ trace step label t as

/-- The steps of `step` that meet `ok` are followed by `step'`, as their labels say. -/
structure Simulation (step : σ → α → Option σ) (ok : σ → α → Prop) (label : σ → α → Option β)
    (step' : τ → β → Option τ) (R : σ → τ → Prop) : Prop where
  silent : ∀ s t a s', R s t → ok s a → step s a = some s' → label s a = none → R s' t
  labelled : ∀ s t a s' b, R s t → ok s a → step s a = some s' → label s a = some b →
    ∃ t', step' t b = some t' ∧ R s' t'

variable {step : σ → α → Option σ} {ok : σ → α → Prop} {label : σ → α → Option β}
  {step' : τ → β → Option τ} {R : σ → τ → Prop} {s s' : σ} {t : τ} {a : α} {as : List α}

theorem trace_cons_none (h : step s a = some s') (ha : label s a = none) :
    trace step label s (a :: as) = trace step label s' as := by
  simp only [trace, h, ha, Option.toList_none, List.nil_append]

theorem trace_cons_some {b : β} (h : step s a = some s') (ha : label s a = some b) :
    trace step label s (a :: as) = b :: trace step label s' as := by
  simp only [trace, h, ha, Option.toList_some, List.singleton_append]

/-- **A run is followed by its trace.** -/
theorem Simulation.exec (hsim : Simulation step ok label step' R) (hR : R s t)
    (hok : Along step ok s as) (h : exec step s as = some s') :
    ∃ t', Machine.exec step' t (trace step label s as) = some t' ∧ R s' t' := by
  induction as generalizing s t with
  | nil =>
    obtain rfl : s = s' := by simpa using h
    exact ⟨t, rfl, hR⟩
  | cons a as ih =>
    obtain ⟨r, hr, hrest⟩ := exec_cons.1 h
    obtain ⟨ha, has⟩ := (along_cons hr).1 hok
    cases hlabel : label s a with
    | none =>
      rw [trace_cons_none hr hlabel]
      exact ih (hsim.silent s t a r hR ha hr hlabel) has hrest
    | some b =>
      rw [trace_cons_some hr hlabel]
      obtain ⟨q, hq, hRq⟩ := hsim.labelled s t a r b hR ha hr hlabel
      obtain ⟨t', ht', hR'⟩ := ih hRq has hrest
      exact ⟨t', exec_cons.2 ⟨q, hq, ht'⟩, hR'⟩

/-- **What the labels of a run meet, its trace meets**: `P` says it of a step of the first machine,
`P'` of the step that follows it. -/
theorem Simulation.along {P : σ → α → Prop} {P' : τ → β → Prop}
    (hsim : Simulation step ok label step' R)
    (hP : ∀ s t a b, R s t → ok s a → P s a → label s a = some b → P' t b) (hR : R s t)
    (hok : Along step ok s as) (halong : Along step P s as) :
    Along step' P' t (trace step label s as) := by
  induction as generalizing s t with
  | nil => trivial
  | cons a as ih =>
    cases hr : step s a with
    | none => simp [trace, hr]
    | some r =>
      obtain ⟨ha, has⟩ := (along_cons hr).1 hok
      obtain ⟨hPa, hPas⟩ := (along_cons hr).1 halong
      cases hlabel : label s a with
      | none =>
        rw [trace_cons_none hr hlabel]
        exact ih (hsim.silent s t a r hR ha hr hlabel) has hPas
      | some b =>
        rw [trace_cons_some hr hlabel]
        obtain ⟨q, hq, hRq⟩ := hsim.labelled s t a r b hR ha hr hlabel
        exact (along_cons hq).2 ⟨hP s t a b hR ha hPa hlabel, ih hRq has hPas⟩

end Machine
