import Mathlib.Data.List.Induction
import Mathlib.Data.Option.Basic
import Mathlib.Order.Defs.PartialOrder

/-!
# Runs of labelled machines

A concurrent program is a state and a partial step function. The label of a step says which
party moves and how every choice it makes falls, so one list of labels is one interleaving, and
a machine is run by evaluating it.

* `exec` — the state a list of labels leads to, if every one of its steps is enabled.
* `Along` — every step a run takes meets a condition on the state it is taken from.
* `exec_invariant`, `exec_invariant_along` — what every step preserves, every run preserves.
* `along_congr`, `exec_iff_along`, `always_iff_along` — equivalences about one step, carried to
  whole runs.
* `exec_append_forall`, `exec_outputs`, `exec_le` — what steps append to a list, and what they never
  lower.
* `exec_history`, `along_iff_split`, `along_iff_history`, `Since` — the same with the run so far in
  view, and "ever since" along a run.
* `Silent` — steps that an observer cannot see, and runs that differ in such steps only.

Nothing here names a program: states, labels and steps are arbitrary.
-/

namespace Machine

variable {σ α : Type*}

/-- The state after the labels of `as`, taken in order from `s`. -/
def exec (step : σ → α → Option σ) (s : σ) : List α → Option σ
  | [] => some s
  | a :: as => (step s a).bind fun t => exec step t as

/-- Every step that the run of `as` from `s` takes meets `ok` in the state it is taken from. -/
def Along (step : σ → α → Option σ) (ok : σ → α → Prop) (s : σ) : List α → Prop
  | [] => True
  | a :: as => match step s a with
    | none => True
    | some t => ok s a ∧ Along step ok t as

variable {step : σ → α → Option σ}

@[simp] theorem exec_nil (s : σ) : exec step s [] = some s := rfl

theorem exec_cons {s t : σ} {a : α} {as : List α} :
    exec step s (a :: as) = some t ↔ ∃ r, step s a = some r ∧ exec step r as = some t := by
  simp [exec, Option.bind_eq_some_iff]

theorem exec_append {s t : σ} {as bs : List α} :
    exec step s (as ++ bs) = some t ↔ ∃ r, exec step s as = some r ∧ exec step r bs = some t := by
  induction as generalizing s with
  | nil => simp
  | cons a as ih =>
    simp only [List.cons_append, exec_cons, ih]
    exact ⟨fun ⟨r, hr, q, hq, ht⟩ => ⟨q, ⟨r, hr, hq⟩, ht⟩,
      fun ⟨q, ⟨r, hr, hq⟩, ht⟩ => ⟨r, hr, q, hq, ht⟩⟩

/-! ## Conditions on the steps of a run -/

section
variable {ok : σ → α → Prop}

@[simp] theorem along_nil (s : σ) : Along step ok s [] := trivial

theorem along_cons {s t : σ} {a : α} {as : List α} (h : step s a = some t) :
    Along step ok s (a :: as) ↔ ok s a ∧ Along step ok t as := by
  simp [Along, h]

instance decidableAlong [∀ s a, Decidable (ok s a)] :
    ∀ (s : σ) (as : List α), Decidable (Along step ok s as)
  | _, [] => .isTrue trivial
  | s, a :: as => match h : step s a with
    | none => .isTrue (by simp [Along, h])
    | some t =>
      have := decidableAlong t as
      decidable_of_iff (ok s a ∧ Along step ok t as) (along_cons h).symm

theorem Along.and {ok' : σ → α → Prop} {s : σ} {as : List α} (h : Along step ok s as)
    (h' : Along step ok' s as) : Along step (fun s a => ok s a ∧ ok' s a) s as := by
  induction as generalizing s with
  | nil => trivial
  | cons a as ih =>
    cases hs : step s a with
    | none => simp [Along, hs]
    | some t =>
      obtain ⟨ha, has⟩ := (along_cons hs).1 h
      obtain ⟨ha', has'⟩ := (along_cons hs).1 h'
      exact (along_cons hs).2 ⟨⟨ha, ha'⟩, ih has has'⟩

theorem Along.imp {ok' : σ → α → Prop} (himp : ∀ s a, ok s a → ok' s a) {s : σ} {as : List α}
    (h : Along step ok s as) : Along step ok' s as := by
  induction as generalizing s with
  | nil => trivial
  | cons a as ih =>
    cases hs : step s a with
    | none => simp [Along, hs]
    | some t =>
      obtain ⟨ha, has⟩ := (along_cons hs).1 h
      exact (along_cons hs).2 ⟨himp s a ha, ih has⟩

theorem along_of_forall_mem {P : α → Prop} {as : List α} (h : ∀ a ∈ as, P a) (s : σ) :
    Along step (fun _ a => P a) s as := by
  induction as generalizing s with
  | nil => trivial
  | cons a as ih =>
    cases hs : step s a with
    | none => simp [Along, hs]
    | some t =>
      have hrest := ih (fun b hb => h b (List.mem_cons_of_mem a hb)) t
      exact (along_cons hs).2 ⟨h a List.mem_cons_self, hrest⟩

end

/-! ## Invariants -/

section
variable {ok : σ → α → Prop} {I : σ → Prop}

/-- **The invariant rule under a condition.** If every step that meets `ok` preserves `I`, so
does every run whose steps all meet `ok`. -/
theorem exec_invariant_along (hstep : ∀ s a t, I s → ok s a → step s a = some t → I t)
    {s t : σ} {as : List α} (h₀ : I s) (hok : Along step ok s as)
    (h : exec step s as = some t) : I t := by
  induction as generalizing s with
  | nil =>
    obtain rfl : s = t := by simpa using h
    exact h₀
  | cons a as ih =>
    obtain ⟨r, hr, ht⟩ := exec_cons.1 h
    obtain ⟨ha, has⟩ := (along_cons hr).1 hok
    exact ih (hstep s a r h₀ ha hr) has ht

theorem along_true (s : σ) (as : List α) : Along step (fun _ _ => True) s as :=
  along_of_forall_mem (fun _ _ => trivial) s

/-- **The invariant rule.** What every step preserves, every run preserves. -/
theorem exec_invariant (hstep : ∀ s a t, I s → step s a = some t → I t) {s t : σ} {as : List α}
    (h₀ : I s) (h : exec step s as = some t) : I t :=
  exec_invariant_along (fun s a t hs _ => hstep s a t hs) h₀ (along_true s as) h

/-- Two conditions that agree on every allowed step from the invariant agree along every allowed
run. -/
theorem along_congr {P Q : σ → α → Prop}
    (hstep : ∀ s a t, I s → ok s a → step s a = some t → I t)
    (hPQ : ∀ s a t, I s → ok s a → step s a = some t → (P s a ↔ Q s a)) {s : σ} {as : List α}
    (h₀ : I s) (hok : Along step ok s as) : Along step P s as ↔ Along step Q s as := by
  induction as generalizing s with
  | nil => exact Iff.rfl
  | cons a as ih =>
    cases hs : step s a with
    | none => simp [Along, hs]
    | some t =>
      obtain ⟨ha, has⟩ := (along_cons hs).1 hok
      rw [along_cons hs, along_cons hs, hPQ s a t h₀ ha hs, ih (hstep s a t h₀ ha hs) has]

/-- If a step keeps `Q` exactly when it meets `ok`, then so does a run. -/
theorem exec_iff_along {Q : σ → Prop} (hstep : ∀ s a t, I s → step s a = some t → I t)
    (hiff : ∀ s a t, I s → step s a = some t → (Q t ↔ Q s ∧ ok s a)) {s t : σ} {as : List α}
    (h₀ : I s) (h : exec step s as = some t) : Q t ↔ Q s ∧ Along step ok s as := by
  induction as generalizing s with
  | nil =>
    obtain rfl : s = t := by simpa using h
    simp
  | cons a as ih =>
    obtain ⟨r, hr, ht⟩ := exec_cons.1 h
    rw [ih (hstep s a r h₀ hr) ht, hiff s a r h₀ hr, along_cons hr, and_assoc]

/-- If a step from a state with `Q` keeps `Q` exactly when it meets `ok`, then `Q` holds in every
state of a run exactly if the run meets `ok`. -/
theorem always_iff_along {Q : σ → Prop} (hstep : ∀ s a t, I s → step s a = some t → I t)
    (hiff : ∀ s a t, I s → Q s → step s a = some t → (Q t ↔ ok s a)) {s : σ} {as : List α}
    (h₀ : I s) (hQ : Q s) :
    (∀ pre post r, as = pre ++ post → exec step s pre = some r → Q r) ↔ Along step ok s as := by
  induction as generalizing s with
  | nil =>
    refine iff_of_true (fun pre post r hsplit hr => ?_) trivial
    obtain ⟨rfl, -⟩ := List.append_eq_nil_iff.1 hsplit.symm
    obtain rfl : s = r := by simpa using hr
    exact hQ
  | cons a as ih =>
    cases hs : step s a with
    | none =>
      refine iff_of_true (fun pre post r hsplit hr => ?_) (by simp [Along, hs])
      cases pre with
      | nil =>
        obtain rfl : s = r := by simpa using hr
        exact hQ
      | cons b pre =>
        obtain ⟨rfl, -⟩ := List.cons.inj hsplit
        obtain ⟨q, hq, -⟩ := exec_cons.1 hr
        rw [hs] at hq
        cases hq
    | some t =>
      rw [along_cons hs]
      have hrest := fun hQt => ih (hstep s a t h₀ hs) hQt
      constructor
      · intro h
        have hQt : Q t := h [a] as t rfl (exec_cons.2 ⟨t, hs, rfl⟩)
        refine ⟨(hiff s a t h₀ hQ hs).1 hQt, (hrest hQt).1 fun pre post r hsplit hr => ?_⟩
        exact h (a :: pre) post r (congrArg (a :: ·) hsplit) (exec_cons.2 ⟨t, hs, hr⟩)
      · intro h pre post r hsplit hr
        obtain ⟨hok, hrun⟩ := h
        cases pre with
        | nil =>
          obtain rfl : s = r := by simpa using hr
          exact hQ
        | cons b pre =>
          obtain ⟨rfl, htail⟩ := List.cons.inj hsplit
          obtain ⟨q, hq, hr⟩ := exec_cons.1 hr
          obtain rfl := Option.some.inj (hs.symm.trans hq)
          exact (hrest ((hiff s a t h₀ hQ hs).2 hok)).2 hrun pre post r htail hr

/-- What every step appends to a list, with elements that meet `p` only, every run appends. -/
theorem exec_append_forall {β : Type*} {f : σ → List β} {p : β → Prop}
    (hstep : ∀ s a t, I s → step s a = some t → I t)
    (hf : ∀ s a t, I s → step s a = some t → ∃ l, f t = f s ++ l ∧ ∀ x ∈ l, p x) {s t : σ}
    {as : List α} (h₀ : I s) (h : exec step s as = some t) :
    ∃ l, f t = f s ++ l ∧ ∀ x ∈ l, p x := by
  induction as generalizing s with
  | nil =>
    obtain rfl : s = t := by simpa using h
    exact ⟨[], (List.append_nil _).symm, fun x hx => absurd hx List.not_mem_nil⟩
  | cons a as ih =>
    obtain ⟨r, hr, ht⟩ := exec_cons.1 h
    obtain ⟨l₁, hl₁, hp₁⟩ := hf s a r h₀ hr
    obtain ⟨l₂, hl₂, hp₂⟩ := ih (hstep s a r h₀ hr) ht
    refine ⟨l₁ ++ l₂, by rw [hl₂, hl₁, List.append_assoc], ?_⟩
    intro x hx
    rcases List.mem_append.1 hx with hx | hx
    · exact hp₁ x hx
    · exact hp₂ x hx

/-- What the steps of a run put out, in order. -/
def outputs {β : Type*} (step : σ → α → Option σ) (out : σ → α → List β) (s : σ) :
    List α → List β
  | [] => []
  | a :: as => match step s a with
    | none => []
    | some t => out s a ++ outputs step out t as

/-- **What every step appends, a run appends in order.** -/
theorem exec_outputs {β : Type*} {ok : σ → α → Prop} {f : σ → List β} {out : σ → α → List β}
    (hstep : ∀ s a t, I s → ok s a → step s a = some t → I t ∧ f t = f s ++ out s a) {s t : σ}
    {as : List α} (h₀ : I s) (hok : Along step ok s as) (h : exec step s as = some t) :
    f t = f s ++ outputs step out s as := by
  induction as generalizing s with
  | nil =>
    obtain rfl : s = t := by simpa using h
    exact (List.append_nil _).symm
  | cons a as ih =>
    obtain ⟨r, hr, ht⟩ := exec_cons.1 h
    obtain ⟨hoka, hok⟩ := (along_cons hr).1 hok
    obtain ⟨hI, hf⟩ := hstep s a r h₀ hoka hr
    rw [ih hI hok ht, hf, List.append_assoc, outputs, hr]

theorem exec_le {β : Type*} [Preorder β] {f : σ → β}
    (hstep : ∀ s a t, step s a = some t → f s ≤ f t) {s t : σ} {as : List α}
    (h : exec step s as = some t) : f s ≤ f t :=
  exec_invariant (I := fun r => f s ≤ f r)
    (fun r a q hr hq => le_trans hr (hstep r a q hq)) (le_refl (f s)) h

end

/-! ## The run so far -/

section
variable {ok : σ → α → Prop} {s t : σ} {a : α} {as : List α}

theorem exec_snoc :
    exec step s (as ++ [a]) = some t ↔ ∃ r, exec step s as = some r ∧ step r a = some t := by
  simp [exec_append, exec_cons]

theorem along_append {r : σ} {bs : List α} (h : exec step s as = some r) :
    Along step ok s (as ++ bs) ↔ Along step ok s as ∧ Along step ok r bs := by
  induction as generalizing s with
  | nil =>
    obtain rfl : s = r := by simpa using h
    simp
  | cons a as ih =>
    obtain ⟨q, hq, hr⟩ := exec_cons.1 h
    rw [List.cons_append, along_cons hq, along_cons hq, ih hr, and_assoc]

/-- **The invariant rule with the run so far.** The induction is on the last step. -/
theorem exec_history {J : List α → σ → Prop} (h₀ : J [] s)
    (hstep : ∀ as r a t, J as r → exec step s as = some r → ok r a → step r a = some t →
      J (as ++ [a]) t)
    (hok : Along step ok s as) (h : exec step s as = some t) : J as t := by
  induction as using List.reverseRecOn generalizing t with
  | nil =>
    obtain rfl : s = t := by simpa using h
    exact h₀
  | append_singleton as a ih =>
    obtain ⟨r, hr, ht⟩ := exec_snoc.1 h
    obtain ⟨has, ha⟩ := (along_append hr).1 hok
    exact hstep as r a t (ih has hr) hr ((along_cons ht).1 ha).1 ht

/-- Along a run, said by splitting it at each step. -/
theorem along_iff_split : Along step ok s as ↔ ∀ pre a post r t, as = pre ++ a :: post →
    exec step s pre = some r → step r a = some t → ok r a := by
  induction as generalizing s with
  | nil => exact iff_of_true trivial fun pre a post r t hsplit => by simp at hsplit
  | cons b as ih =>
    constructor
    · intro h pre a post r t hsplit hr ht
      cases pre with
      | nil =>
        obtain ⟨rfl, rfl⟩ := List.cons.inj hsplit
        obtain rfl : s = r := by simpa using hr
        exact ((along_cons ht).1 h).1
      | cons c pre =>
        obtain ⟨rfl, rfl⟩ := List.cons.inj hsplit
        obtain ⟨q, hq, hr⟩ := exec_cons.1 hr
        exact ih.1 ((along_cons hq).1 h).2 pre a post r t rfl hr ht
    · intro h
      cases hs : step s b with
      | none => simp [Along, hs]
      | some q =>
        refine (along_cons hs).2 ⟨h [] b as s q rfl rfl hs, ih.2 ?_⟩
        intro pre a post r t hsplit hr ht
        exact h (b :: pre) a post r t (congrArg (b :: ·) hsplit) (exec_cons.2 ⟨q, hs, hr⟩) ht

/-- A step of a run that is one step longer is the last one, or was there before. -/
theorem snoc_eq_split {pre post : List α} {c : α} :
    as ++ [a] = pre ++ c :: post ↔ pre = as ∧ c = a ∧ post = [] ∨
      ∃ mid, post = mid ++ [a] ∧ as = pre ++ c :: mid := by
  constructor
  · intro hsplit
    rcases List.eq_nil_or_concat post with rfl | ⟨mid, b, rfl⟩
    · obtain ⟨rfl, hlast⟩ := List.append_inj' hsplit rfl
      exact .inl ⟨rfl, (List.cons.inj hlast).1.symm, rfl⟩
    · rw [List.concat_eq_append, ← List.cons_append, ← List.append_assoc] at hsplit
      obtain ⟨rfl, hlast⟩ := List.append_inj' hsplit rfl
      obtain ⟨rfl, -⟩ := List.cons.inj hlast
      exact .inr ⟨mid, List.concat_eq_append, rfl⟩
  · rintro (⟨rfl, rfl, rfl⟩ | ⟨mid, rfl, rfl⟩)
    · rfl
    · simp

theorem along_snoc : Along step ok s (as ++ [a]) ↔ Along step ok s as ∧
    ∀ r t, exec step s as = some r → step r a = some t → ok r a := by
  induction as generalizing s with
  | nil =>
    have hlast : (∀ r t, exec step s [] = some r → step r a = some t → ok r a) ↔
        ∀ t, step s a = some t → ok s a := by
      constructor
      · intro hall t ht
        exact hall s t rfl ht
      · intro hall r t hr ht
        obtain rfl : s = r := by simpa using hr
        exact hall t ht
    rw [hlast]
    cases hs : step s a with
    | none => simp [Along, hs]
    | some q => simp [Along, hs]
  | cons b as ih =>
    cases hs : step s b with
    | none => simp [Along, exec, hs]
    | some q => simp [Along, exec, hs, ih, and_assoc]

/-- Along a run, said by the run so far at each step. What is said may rest on the condition having
been met until then. -/
theorem along_iff_history {Q : List α → σ → α → Prop}
    (h : ∀ pre a r t, Along step ok s pre → exec step s pre = some r → step r a = some t →
      (ok r a ↔ Q pre r a)) :
    Along step ok s as ↔ ∀ pre a post r t, as = pre ++ a :: post → exec step s pre = some r →
      step r a = some t → Q pre r a := by
  induction as using List.reverseRecOn with
  | nil => exact iff_of_true trivial fun pre a post r t hsplit => by simp at hsplit
  | append_singleton as a ih =>
    rw [along_snoc, ih]
    constructor
    · rintro ⟨hbefore, hlast⟩ pre c post r t hsplit hr ht
      rcases snoc_eq_split.1 hsplit with ⟨rfl, rfl, rfl⟩ | ⟨mid, rfl, has⟩
      · exact (h pre c r t (ih.2 hbefore) hr ht).1 (hlast r t hr ht)
      · exact hbefore pre c mid r t has hr ht
    · intro hall
      have hbefore : ∀ pre c post r t, as = pre ++ c :: post → exec step s pre = some r →
          step r c = some t → Q pre r c := by
        intro pre c post r t has hr ht
        exact hall pre c (post ++ [a]) r t (by rw [has]; simp) hr ht
      refine ⟨hbefore, fun r t hr ht => ?_⟩
      exact (h as a r t (ih.2 hbefore) hr ht).2 (hall as a [] r t rfl hr ht)

/-- `Q` held in some state of the run, and `P` has held from that state on. -/
def Since (step : σ → α → Option σ) (P Q : σ → Prop) (s : σ) (as : List α) : Prop :=
  ∃ pre post r, as = pre ++ post ∧ exec step s pre = some r ∧ Q r ∧
    ∀ mid rest q, post = mid ++ rest → exec step r mid = some q → P q

variable {P Q : σ → Prop}

theorem since_now (h : exec step s as = some t) (hP : P t) (hQ : Q t) : Since step P Q s as := by
  refine ⟨as, [], t, (List.append_nil as).symm, h, hQ, ?_⟩
  intro mid rest q hsplit hq
  obtain ⟨rfl, -⟩ := List.append_eq_nil_iff.1 hsplit.symm
  obtain rfl : t = q := by simpa using hq
  exact hP

theorem Since.imp {Q' : σ → Prop} (h : Since step P Q s as) (hQ : ∀ r, Q r → Q' r) :
    Since step P Q' s as := by
  obtain ⟨pre, post, r, hsplit, hr, hq, hall⟩ := h
  exact ⟨pre, post, r, hsplit, hr, hQ r hq, hall⟩

theorem Since.snoc (h : Since step P Q s as) (ht : exec step s (as ++ [a]) = some t) (hP : P t) :
    Since step P Q s (as ++ [a]) := by
  obtain ⟨pre, post, r, rfl, hr, hQ, hall⟩ := h
  refine ⟨pre, post ++ [a], r, List.append_assoc pre post [a], hr, hQ, ?_⟩
  intro mid rest q hsplit hq
  rcases List.eq_nil_or_concat rest with rfl | ⟨rest, b, rfl⟩
  · -- The last state.
    rw [List.append_nil] at hsplit
    rw [List.append_assoc, hsplit] at ht
    obtain ⟨r', hr', ht⟩ := exec_append.1 ht
    obtain rfl := Option.some.inj (hr.symm.trans hr')
    obtain rfl := Option.some.inj (hq.symm.trans ht)
    exact hP
  · rw [List.concat_eq_append, ← List.append_assoc] at hsplit
    exact hall mid rest q (List.append_inj' hsplit rfl).1 hq

end

/-! ## Silent steps -/

/-- The steps of a silent label are always possible, and cannot be seen through `R`; the others
can be followed. -/
structure Silent (step : σ → α → Option σ) (R : σ → σ → Prop) (silent : α → Bool) : Prop where
  enabled : ∀ t a, silent a = true → ∃ t', step t a = some t'
  left : ∀ s t a s', silent a = true → R s t → step s a = some s' → R s' t
  right : ∀ s t a t', silent a = true → R s t → step t a = some t' → R s t'
  visible : ∀ s t a s', silent a = false → R s t → step s a = some s' →
    ∃ t', step t a = some t' ∧ R s' t'

section
variable {R : σ → σ → Prop} {silent : α → Bool}

theorem Silent.exec_right (h : Silent step R silent) {s t : σ} {as : List α}
    (has : ∀ a ∈ as, silent a = true) (hR : R s t) :
    ∃ t', exec step t as = some t' ∧ R s t' := by
  induction as generalizing t with
  | nil => exact ⟨t, rfl, hR⟩
  | cons a as ih =>
    have ha := has a List.mem_cons_self
    obtain ⟨r, hr⟩ := h.enabled t a ha
    obtain ⟨t', ht, hR'⟩ := ih (fun b hb => has b (List.mem_cons_of_mem a hb))
      (h.right s t a r ha hR hr)
    exact ⟨t', exec_cons.2 ⟨r, hr, ht⟩, hR'⟩

/-- **Runs with the same visible labels lead to related states.** -/
theorem Silent.exec (h : Silent step R silent) {s t s' : σ} {as bs : List α} (hR : R s t)
    (hsame : as.filter (fun a => !silent a) = bs.filter fun a => !silent a)
    (hs : exec step s as = some s') : ∃ t', exec step t bs = some t' ∧ R s' t' := by
  induction as generalizing s t bs with
  | nil =>
    obtain rfl : s = s' := by simpa using hs
    apply h.exec_right _ hR
    intro b hb
    by_contra hvisible
    have hmem : b ∈ bs.filter fun a => !silent a :=
      List.mem_filter.2 ⟨hb, by simpa using hvisible⟩
    rw [← hsame] at hmem
    exact absurd hmem List.not_mem_nil
  | cons a as ih =>
    obtain ⟨r, hr, hs⟩ := exec_cons.1 hs
    cases ha : silent a with
    | true =>
      rw [List.filter_cons_of_neg (by simp [ha])] at hsame
      exact ih (h.left s t a r ha hR hr) hsame hs
    | false =>
      rw [List.filter_cons_of_pos (by simp [ha])] at hsame
      obtain ⟨pre, post, rfl, hpre, -, hpost⟩ := List.filter_eq_cons_iff.1 hsame.symm
      -- The other run catches up with its silent steps first.
      obtain ⟨t₁, ht₁, hR₁⟩ := h.exec_right (fun b hb => by simpa using hpre b hb) hR
      obtain ⟨t₂, ht₂, hR₂⟩ := h.visible s t₁ a r ha hR₁ hr
      obtain ⟨t', ht', hR'⟩ := ih hR₂ hpost.symm hs
      exact ⟨t', exec_append.2 ⟨t₁, ht₁, exec_cons.2 ⟨t₂, ht₂, ht'⟩⟩, hR'⟩

end

end Machine
