import Mathlib.Data.List.Nodup
import Mathlib.Data.List.ReduceOption

/-!
# Order along a path of queues

What one party sends is a list without duplicates. On its way it passes through queues, where it is
mixed with what others send, and elements of it are lost, copied, and delivered or not. `Follows`
says that a queue never has two of its elements the wrong way round.

* `Follows.sublist` — losing elements.
* `Follows.insert`, `Follows.insert_of_notMem`, `Follows.insert_last` — gaining one, of another
  party or the latest of this one.
* `Follows.double` — delivering an element and keeping it.
* `Follows.send` — the party sends a new element.
* `Follows.lt` — what the order says about two positions.
* `lt_of_append` — an element of the past and an element of the future.
-/

namespace InOrder

variable {α : Type*} {sent q q₁ q₂ : List α} {e x y : α}

/-- No two elements of `sent` are in `q` the wrong way round. -/
def Follows (sent q : List α) : Prop := q.Pairwise fun x y => ¬[y, x].Sublist sent

theorem Follows.sublist (h : Follows sent q₁) (hq : q₂.Sublist q₁) : Follows sent q₂ :=
  List.Pairwise.sublist hq h

theorem follows_nil (sent : List α) : Follows sent [] := List.Pairwise.nil

theorem ne_of_pair (hnodup : sent.Nodup) (h : [x, y].Sublist sent) : x ≠ y := by
  have hpair := hnodup.sublist h
  exact fun heq => (List.nodup_cons.1 hpair).1 (heq ▸ List.mem_singleton_self y)

theorem not_pair_last {l : List α} (hnodup : (l ++ [e]).Nodup) (x : α) :
    ¬[e, x].Sublist (l ++ [e]) := by
  intro h
  have he : e ∉ l := fun hmem =>
    (List.disjoint_of_nodup_append hnodup) hmem (List.mem_singleton_self e)
  obtain ⟨l₁, l₂, hsplit, h₁, h₂⟩ := List.sublist_append_iff.1 h
  cases l₁ with
  | nil =>
    obtain rfl : [e, x] = l₂ := hsplit
    exact absurd h₂.length_le (Nat.not_succ_le_self 1)
  | cons a l₁ =>
    obtain ⟨rfl, -⟩ := List.cons_eq_cons.1 hsplit
    exact he (h₁.subset List.mem_cons_self)

theorem pair_of_snoc {l : List α} (h : [x, y].Sublist (l ++ [e])) (hy : y ≠ e) :
    [x, y].Sublist l := by
  obtain ⟨l₁, l₂, hsplit, h₁, h₂⟩ := List.sublist_append_iff.1 h
  rcases List.sublist_singleton.1 h₂ with rfl | rfl
  · rw [List.append_nil] at hsplit
    rw [hsplit]
    exact h₁
  · have hlast : [x] ++ [y] = l₁ ++ [e] := hsplit
    exact absurd (List.append_inj_right' hlast rfl) (by simpa using hy)

theorem pair_of_getElem {l : List α} {i j : ℕ} (hij : i < j) (hx : l[i]? = some x)
    (hy : l[j]? = some y) : [x, y].Sublist l := by
  obtain ⟨hi, hxi⟩ := List.getElem?_eq_some_iff.1 hx
  have hmem : y ∈ l.drop (i + 1) := by
    apply List.mem_of_getElem? (i := j - (i + 1))
    rw [List.getElem?_drop, Nat.add_sub_cancel' hij, hy]
  have hdrop : l.drop i = x :: l.drop (i + 1) := by rw [List.drop_eq_getElem_cons hi, hxi]
  have htail : [x, y].Sublist (x :: l.drop (i + 1)) :=
    (List.singleton_sublist.2 hmem).cons_cons x
  rw [← hdrop] at htail
  exact htail.trans (List.drop_sublist i l)

/-! ## Gaining an element -/

/-- A new element has to come after what was sent before it, and before what was sent after it. -/
theorem Follows.insert (h : Follows sent (q₁ ++ q₂)) (h₁ : ∀ x ∈ q₁, ¬[e, x].Sublist sent)
    (h₂ : ∀ y ∈ q₂, ¬[y, e].Sublist sent) : Follows sent (q₁ ++ e :: q₂) := by
  obtain ⟨hq₁, hq₂, hboth⟩ := List.pairwise_append.1 h
  refine List.pairwise_append.2 ⟨hq₁, List.pairwise_cons.2 ⟨h₂, hq₂⟩, fun x hx y hy => ?_⟩
  rcases List.mem_cons.1 hy with rfl | hy
  · exact h₁ x hx
  · exact hboth x hx y hy

theorem Follows.insert_of_notMem (h : Follows sent (q₁ ++ q₂)) (he : e ∉ sent) :
    Follows sent (q₁ ++ e :: q₂) :=
  h.insert (fun _ _ hpair => he (hpair.subset List.mem_cons_self))
    fun y _ hpair => he (hpair.subset (List.mem_cons_of_mem y (List.mem_singleton_self e)))

theorem Follows.insert_last {l : List α} (hsent : sent = l ++ [e]) (hnodup : sent.Nodup)
    (h : Follows sent (q₁ ++ q₂)) (hq₂ : ∀ y ∈ q₂, y ∉ sent) : Follows sent (q₁ ++ e :: q₂) := by
  subst hsent
  exact h.insert (fun x _ => not_pair_last hnodup x)
    fun y hy hpair => hq₂ y hy (hpair.subset List.mem_cons_self)

theorem Follows.double (hnodup : sent.Nodup) (h : Follows sent (q₁ ++ e :: q₂)) :
    Follows sent (q₁ ++ e :: e :: q₂) := by
  obtain ⟨-, hcons, hboth⟩ := List.pairwise_append.1 h
  refine h.insert (fun x hx => hboth x hx e List.mem_cons_self) fun y hy => ?_
  rcases List.mem_cons.1 hy with rfl | hy
  · exact fun hpair => ne_of_pair hnodup hpair rfl
  · exact (List.pairwise_cons.1 hcons).1 y hy

theorem Follows.send (h : Follows sent q) (he : e ∉ q) : Follows (sent ++ [e]) q := by
  refine h.imp_of_mem fun hx _ hold hpair => hold (pair_of_snoc hpair ?_)
  exact fun heq => he (heq ▸ hx)

/-! ## Positions -/

/-- **What was sent first is first.** -/
theorem Follows.lt (hnodup : sent.Nodup) (h : Follows sent q) (hpair : [x, y].Sublist sent)
    {m n : ℕ} (hm : q[m]? = some x) (hn : q[n]? = some y) : m < n := by
  rcases Nat.lt_trichotomy m n with hlt | rfl | hlt
  · exact hlt
  · exact absurd (Option.some.inj (hm.symm.trans hn)) (ne_of_pair hnodup hpair)
  · exact absurd hpair (h.forall_sublist (pair_of_getElem hlt hn hm))

/-- An element that is not gained any more is before one that is gained later. -/
theorem lt_of_append (hx : x ∉ q₂) (hy : y ∉ q₁) {m n : ℕ} (hm : (q₁ ++ q₂)[m]? = some x)
    (hn : (q₁ ++ q₂)[n]? = some y) : m < n := by
  by_contra hlt
  rcases Nat.lt_or_ge n q₁.length with hn₁ | hn₁
  · rw [List.getElem?_append_left hn₁] at hn
    exact hy (List.mem_of_getElem? hn)
  · rw [List.getElem?_append_right (Nat.le_trans hn₁ (Nat.le_of_not_lt hlt))] at hm
    exact hx (List.mem_of_getElem? hm)

end InOrder
