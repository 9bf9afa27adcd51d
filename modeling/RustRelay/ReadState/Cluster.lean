import Mathlib.Data.Fintype.Basic
import RustRelay.ReadState.Shutdown

/-!
# Read states on several nodes

Every node buffers the acknowledgements of its own clients and flushes them into the one table, by
a flusher of its own and by `flush_now`, operation by operation and in any order. A node may crash
at any time, and starts again with an empty buffer. Any statement may fail.

**Theorem (`read_states_survive`).** The table never goes back, and no node ever has or writes an id
that nobody acknowledged. An acknowledgement is in the table or with the node that took it as long
as this node does not crash with something in memory and no statement of its `flush_now` fails.

**Theorem (`read_states_converge`).** If that holds for every node, then once no node has
anything in memory the table is that of the start with all acknowledgements merged into it. So which
node a client is connected to, how the steps fall, which chunks fail and how often does not matter:
two clusters that took the same acknowledgements end with the same table.
-/

namespace RustRelay

open MaxMerge Machine

/-- What a node has in memory. -/
structure ReadNode where
  cache : ReadStateCache
  flusher : Flusher
  flush : FlushNow
  beforePending : ℕ
  beforeTotal : ℕ

namespace ReadNode

/-- A node that has just started. -/
def start : ReadNode := ⟨.new, .idle, .serving, 0, 0⟩

/-- The node in front of a table. -/
def withTable (nd : ReadNode) (table : UserId × ChannelId → WithBot MessageId) : Shutdown :=
  ⟨⟨nd.cache, table, nd.flusher, nd.beforePending, nd.beforeTotal⟩, nd.flush⟩

/-- The largest id for a key that the node has not written. -/
def memory (nd : ReadNode) (key : UserId × ChannelId) : WithBot MessageId :=
  rowAt nd.cache.pending key ⊔ ackMax nd.flusher.inFlight key ⊔ ackMax nd.flush.inFlight key

/-- The node has written everything. -/
def Empty (nd : ReadNode) : Prop :=
  nd.cache.pending = ∅ ∧ nd.flusher.inFlight = [] ∧ nd.flush.inFlight = []

instance (nd : ReadNode) : Decidable nd.Empty :=
  decidable_of_iff (nd.cache.pending.keys = [] ∧ nd.flusher.inFlight = [] ∧ nd.flush.inFlight = [])
    (and_congr_left' DashMap.keys_eq_nil_iff)

theorem memory_of_empty {nd : ReadNode} (h : nd.Empty) (key : UserId × ChannelId) :
    nd.memory key = ⊥ := by
  rw [memory, h.1, h.2.1, h.2.2, rowAt_of_none (AList.lookup_empty key), ackMax_nil, sup_bot_eq,
    sup_bot_eq]

theorem empty_start : start.Empty := ⟨rfl, rfl, rfl⟩

/-- A step of a client, of the flusher or of `flush_now`. Clients are served all the time, chunks
may fail, and `flush_now` may be called again. -/
def step (batchThreshold : ℕ) (s : Shutdown) : Shutdown.Action → Option Shutdown
  | .server a =>
    (Buffered.step batchThreshold s.server a).map fun server => { s with server := server }
  -- An entry that is removed and written again during an iteration may be missed, so what keys the
  -- iteration finds is left open.
  | .collected keys => match s.server.flusher with
    | .collecting _ => some { s with server := { s.server with flusher := .draining keys [] } }
    | _ => none
  | .call => match s.flush with
    | .serving | .returned => some { s with flush := .collecting s.server.cache.pending.keys }
    | _ => none
  | .flushCollected keys => match s.flush with
    | .collecting _ => some { s with flush := .draining keys [] }
    | _ => none
  | .flushAdvance => s.flushAdvance

end ReadNode

namespace Shutdown

/-- What is left in memory when the node moved on. -/
def node (s : Shutdown) : ReadNode :=
  ⟨s.server.cache, s.server.flusher, s.flush, s.server.beforePending, s.server.beforeTotal⟩

/-- The largest id for a key in the table, the map and the two batches. -/
def held (s : Shutdown) (key : UserId × ChannelId) : WithBot MessageId :=
  s.server.held key ⊔ ackMax s.flush.inFlight key

theorem held_eq (s : Shutdown) (key : UserId × ChannelId) :
    s.held key = s.server.table key ⊔ s.node.memory key := by
  simp only [held, Buffered.held, ReadNode.memory, node, sup_assoc]

theorem held_withTable (nd : ReadNode) (table : UserId × ChannelId → WithBot MessageId)
    (key : UserId × ChannelId) : (nd.withTable table).held key = table key ⊔ nd.memory key :=
  held_eq _ key

variable {batchThreshold : ℕ} {s t : Shutdown} {a : Action} {key : UserId × ChannelId}

/-- A node does what a server does that shuts down. -/
theorem node_step (h : step batchThreshold s a = some t) :
    ReadNode.step batchThreshold s a = some t := by
  cases a with
  | server a =>
    simp only [step] at h
    split_ifs at h
    exact h
  | collected keys =>
    cases hf : s.server.flusher <;> simp only [step, hf, reduceCtorEq] at h
    split_ifs at h
    simpa only [ReadNode.step, hf] using h
  | call =>
    cases hf : s.flush <;> simp only [step, hf, reduceCtorEq] at h
    simpa only [ReadNode.step, hf] using h
  | flushCollected keys =>
    cases hf : s.flush <;> simp only [step, hf, reduceCtorEq] at h
    split_ifs at h
    simpa only [ReadNode.step, hf] using h
  | flushAdvance => exact h

theorem held_flushAdvance (h : s.flushAdvance = some t) (key : UserId × ChannelId) :
    t.held key = s.held key ∧ s.server.table key ≤ t.server.table key := by
  obtain ⟨⟨cache, table, flusher, p, q⟩, flush⟩ := s
  unfold flushAdvance at h
  cases flush with
  | draining keys batch =>
    cases keys with
    | cons k keys =>
      obtain rfl := Option.some.inj h
      refine ⟨?_, le_rfl⟩
      simp only [held, Buffered.held, FlushNow.inFlight]
      rw [ackMax_append, ← cache.held_drainKey k key]
      ac_rfl
    | nil =>
      obtain rfl := Option.some.inj h
      refine ⟨?_, le_rfl⟩
      have hflight : FlushNow.inFlight (if batch.isEmpty then .returned else .writing batch) =
          batch := by
        cases batch <;> rfl
      simp only [held]
      rw [hflight]
      rfl
  | writing batch =>
    obtain rfl := Option.some.inj h
    refine ⟨?_, le_sup_left⟩
    simp only [held, Buffered.held, FlushNow.inFlight, ackMax_nil, sup_bot_eq]
    ac_rfl
  | serving | collecting | returned => cases h

/-- A step of a node adds what is acknowledged, and moves the rest. -/
theorem held_node_step (h : ReadNode.step batchThreshold s a = some t)
    (key : UserId × ChannelId) : t.held key = s.held key ⊔ ackMax (acks [a]) key ∧
      s.server.table key ≤ t.server.table key := by
  have hsame {flusher : Flusher} {flush : FlushNow}
      (hflusher : flusher.inFlight = s.server.flusher.inFlight)
      (hflush : flush.inFlight = s.flush.inFlight) :
      (⟨{ s.server with flusher := flusher }, flush⟩ : Shutdown).held key = s.held key ⊔ ⊥ := by
    simp only [held, Buffered.held_setFlusher hflusher, hflush, sup_bot_eq]
  cases a with
  | server a =>
    obtain ⟨server, hserver, rfl⟩ := Option.map_eq_some_iff.1 h
    obtain ⟨hheld, htable⟩ := Buffered.held_step hserver key
    refine ⟨?_, htable⟩
    simp only [held, hheld]
    exact sup_right_comm _ _ _
  | collected keys =>
    cases hf : s.server.flusher <;> simp only [ReadNode.step, hf, reduceCtorEq] at h
    obtain rfl := Option.some.inj h
    exact ⟨hsame (by rw [hf]; rfl) rfl, le_rfl⟩
  | call =>
    cases hf : s.flush <;> simp only [ReadNode.step, hf, reduceCtorEq] at h <;>
      obtain rfl := Option.some.inj h <;> exact ⟨hsame rfl (by rw [hf]; rfl), le_rfl⟩
  | flushCollected keys =>
    cases hf : s.flush <;> simp only [ReadNode.step, hf, reduceCtorEq] at h
    obtain rfl := Option.some.inj h
    exact ⟨hsame rfl (by rw [hf]; rfl), le_rfl⟩
  | flushAdvance =>
    obtain ⟨hheld, htable⟩ := held_flushAdvance (show s.flushAdvance = some t from h) key
    exact ⟨hheld.trans (sup_bot_eq _).symm, htable⟩

end Shutdown

/-- Any number of nodes in front of one table. -/
structure ReadCluster (ι : Type) where
  table : UserId × ChannelId → WithBot MessageId
  nodes : ι → ReadNode

namespace ReadCluster

/-- Nodes that have just started. -/
def init (ι : Type) (table : UserId × ChannelId → WithBot MessageId) : ReadCluster ι :=
  ⟨table, fun _ => .start⟩

inductive Action (ι : Type)
  /-- A client, the flusher or `flush_now` of a node. -/
  | node (b : ι) (a : Shutdown.Action)
  /-- The statement of `flush_now` fails, and with it goes the batch. -/
  | flushFailed (b : ι)
  /-- A node loses its memory and starts again. -/
  | crash (b : ι)

variable {ι : Type} [DecidableEq ι]

def step (batchThreshold : ℕ) (s : ReadCluster ι) : Action ι → Option (ReadCluster ι)
  | .node b a => (ReadNode.step batchThreshold ((s.nodes b).withTable s.table) a).map fun t =>
    ⟨t.server.table, Function.update s.nodes b t.node⟩
  | .flushFailed b => match (s.nodes b).flush with
    | .writing _ =>
      some { s with nodes := Function.update s.nodes b { s.nodes b with flush := .returned } }
    | _ => none
  | .crash b => some { s with nodes := Function.update s.nodes b .start }

/-- The acknowledgements that an action makes. -/
def Action.acks {ι : Type} : Action ι → List ReadUpdate
  | .node _ a => Shutdown.acks [a]
  | .flushFailed _ | .crash _ => []

/-- The acknowledgements among the actions of a run, on whatever node. -/
def acks {ι : Type} (as : List (Action ι)) : List ReadUpdate := as.flatMap Action.acks

/-- If the node crashes, it has written everything, and its `flush_now` does not fail. -/
def Spares (b : ι) (s : ReadCluster ι) : Action ι → Prop
  | .node _ _ => True
  | .flushFailed c => c ≠ b
  | .crash c => c = b → (s.nodes b).Empty

instance (b : ι) (s : ReadCluster ι) : (a : Action ι) → Decidable (Spares b s a)
  | .node _ _ => .isTrue trivial
  | .flushFailed c => inferInstanceAs (Decidable (c ≠ b))
  | .crash c => inferInstanceAs (Decidable (c = b → (s.nodes b).Empty))

variable {batchThreshold : ℕ} {s t : ReadCluster ι} {a : Action ι} {b c : ι}
  {key : UserId × ChannelId}

/-! ## One step -/

/-- What a step does to the ids of a node: it moves them, or some are lost. -/
structure Moves (b : ι) (a : Action ι) (s t : ReadCluster ι) : Prop where
  other : ∀ c, c ≠ b → t.nodes c = s.nodes c
  table : ∀ key, s.table key ≤ t.table key
  upper : ∀ key, t.table key ⊔ (t.nodes b).memory key ≤
    s.table key ⊔ (s.nodes b).memory key ⊔ ackMax a.acks key
  lower : Spares b s a → ∀ key, s.table key ⊔ (s.nodes b).memory key ⊔ ackMax a.acks key ≤
    t.table key ⊔ (t.nodes b).memory key

/-- A step is at one node. -/
theorem step_moves (h : step batchThreshold s a = some t) :
    ∃ b, Moves b a s t ∧ ∀ c e, a = .node c e → c = b := by
  cases a with
  | node b e =>
    obtain ⟨r, hr, rfl⟩ := Option.map_eq_some_iff.1 h
    have hheld (key : UserId × ChannelId) : r.server.table key ⊔ r.node.memory key =
        s.table key ⊔ (s.nodes b).memory key ⊔ ackMax (Shutdown.acks [e]) key := by
      rw [← Shutdown.held_eq, (Shutdown.held_node_step hr key).1, Shutdown.held_withTable]
    refine ⟨b, ⟨fun c hc => Function.update_of_ne hc _ _, fun key =>
      (Shutdown.held_node_step hr key).2, fun key => ?_, fun _ key => ?_⟩, fun c e' heq =>
        (Action.node.inj heq).1.symm⟩
    · dsimp only
      rw [Function.update_self, hheld]
      exact le_refl _
    · dsimp only
      rw [Function.update_self, hheld]
      exact le_refl _
  | flushFailed b =>
    simp only [step] at h
    split at h
    · obtain rfl := Option.some.inj h
      refine ⟨b, ⟨fun c hc => Function.update_of_ne hc _ _, fun key => le_refl _, fun key => ?_,
        fun hok => absurd rfl hok⟩, fun c e heq => by cases heq⟩
      -- The batch is gone; the map and the flusher keep theirs.
      simp only [Function.update_self, ReadNode.memory, FlushNow.inFlight, ackMax_nil, sup_bot_eq]
      exact le_sup_of_le_left (sup_le_sup_left le_sup_left _)
    · cases h
  | crash b =>
    obtain rfl := Option.some.inj h
    refine ⟨b, ⟨fun c hc => Function.update_of_ne hc _ _, fun key => le_refl _, fun key => ?_,
      fun hok key => ?_⟩, fun c e heq => by cases heq⟩ <;> dsimp only <;>
      rw [Function.update_self, ReadNode.memory_of_empty ReadNode.empty_start]
    · exact sup_le (le_sup_of_le_left le_sup_left) bot_le
    · simp [ReadNode.memory_of_empty (hok rfl), Action.acks]

theorem table_step (h : step batchThreshold s a = some t) (key : UserId × ChannelId) :
    s.table key ≤ t.table key := by
  obtain ⟨b, hmoves, -⟩ := step_moves h
  exact hmoves.table key

/-- The table and what one node has not written go up, unless the node loses something. -/
theorem reach_step (hspares : Spares b s a) (h : step batchThreshold s a = some t)
    (key : UserId × ChannelId) :
    s.table key ⊔ (s.nodes b).memory key ≤ t.table key ⊔ (t.nodes b).memory key := by
  obtain ⟨c, hmoves, -⟩ := step_moves h
  by_cases hbc : b = c
  · subst hbc
    exact le_sup_left.trans (hmoves.lower hspares key)
  · rw [hmoves.other b hbc]
    exact sup_le_sup_right (hmoves.table key) _

/-- Nothing anywhere exceeds a bound. -/
def Bounded (bound : UserId × ChannelId → WithBot MessageId) (s : ReadCluster ι) : Prop :=
  ∀ key, s.table key ≤ bound key ∧ ∀ b, (s.nodes b).memory key ≤ bound key

theorem bounded_step {bound : UserId × ChannelId → WithBot MessageId} (hs : Bounded bound s)
    (hacks : ∀ key, ackMax a.acks key ≤ bound key) (h : step batchThreshold s a = some t) :
    Bounded bound t := by
  intro key
  obtain ⟨b, hmoves, -⟩ := step_moves h
  have hb : t.table key ⊔ (t.nodes b).memory key ≤ bound key :=
    (hmoves.upper key).trans (sup_le (sup_le (hs key).1 ((hs key).2 b)) (hacks key))
  refine ⟨le_sup_left.trans hb, fun c => ?_⟩
  by_cases hc : c = b
  · rw [hc]
    exact le_sup_right.trans hb
  · rw [hmoves.other c hc]
    exact (hs key).2 c

/-! ## Runs -/

theorem ackMax_le_iff {xs : List ReadUpdate} {bound : WithBot MessageId} :
    ackMax xs key ≤ bound ↔ ∀ x ∈ xs, keyOf x = key → (x.2.2 : WithBot MessageId) ≤ bound := by
  induction xs with
  | nil => simp
  | cons x xs ih =>
    rw [ackMax_cons, sup_le_iff, ih, ackMax_singleton, List.forall_mem_cons]
    refine and_congr ?_ Iff.rfl
    split_ifs with hx
    · exact ⟨fun h _ => h, fun h => h hx⟩
    · exact ⟨fun _ h => absurd h hx, fun _ => bot_le⟩

theorem run_reach {as : List (Action ι)} {bound : WithBot MessageId}
    (hs : bound ≤ s.table key ⊔ (s.nodes b).memory key)
    (hspares : Along (step batchThreshold) (Spares b) s as)
    (h : exec (step batchThreshold) s as = some t) :
    bound ≤ t.table key ⊔ (t.nodes b).memory key :=
  exec_invariant_along (I := fun s : ReadCluster ι => bound ≤ s.table key ⊔ (s.nodes b).memory key)
    (fun _ _ _ hle hok hstep => hle.trans (reach_step hok hstep key)) hs hspares h

theorem reach_update {r : ReadCluster ι} {pre : List (Action ι)} {x : ReadUpdate}
    (h : exec (step batchThreshold) r (pre ++ [.node b (.server (.update x))]) = some s) :
    (x.2.2 : WithBot MessageId) ≤ s.table (keyOf x) ⊔ (s.nodes b).memory (keyOf x) := by
  obtain ⟨q, -, hlast⟩ := exec_append.1 h
  obtain ⟨q', hstep, hq'⟩ := exec_cons.1 hlast
  obtain rfl := Option.some.inj hq'
  obtain ⟨c, hmoves, hc⟩ := step_moves hstep
  obtain rfl := hc b _ rfl
  refine le_trans (le_sup_of_le_right ?_) (hmoves.lower trivial (keyOf x))
  exact ackMax_le_iff.1 (le_refl _) x (List.mem_singleton_self x) rfl

omit [DecidableEq ι] in
theorem mem_acks_iff {as : List (Action ι)} {x : ReadUpdate} :
    x ∈ acks as ↔ ∃ b, Action.node b (.server (.update x)) ∈ as := by
  simp only [acks, List.mem_flatMap]
  constructor
  · rintro ⟨a, ha, hx⟩
    cases a with
    | flushFailed | crash => exact absurd hx List.not_mem_nil
    | node b e =>
      cases e with
      | server e =>
        cases e with
        | update y =>
          obtain rfl := List.mem_singleton.1 hx
          exact ⟨b, ha⟩
        | _ => exact absurd hx List.not_mem_nil
      | _ => exact absurd hx List.not_mem_nil
  · rintro ⟨b, hb⟩
    exact ⟨_, hb, List.mem_singleton_self x⟩

omit [DecidableEq ι] in
theorem init_bounded (table : UserId × ChannelId → WithBot MessageId)
    {bound : UserId × ChannelId → WithBot MessageId} (h : ∀ key, table key ≤ bound key) :
    Bounded bound (init ι table) := by
  refine fun key => ⟨h key, fun b => ?_⟩
  rw [init, ReadNode.memory_of_empty ReadNode.empty_start]
  exact bot_le

theorem run_bounded {table : UserId × ChannelId → WithBot MessageId} {as : List (Action ι)}
    (h : exec (step batchThreshold) (init ι table) as = some t) :
    Bounded (fun key => table key ⊔ ackMax (acks as) key) t := by
  have hacks : Along (step batchThreshold) (fun _ a => ∀ key,
      ackMax a.acks key ≤ table key ⊔ ackMax (acks as) key) (init ι table) as := by
    refine along_of_forall_mem (fun a ha key => ?_) _
    refine le_sup_of_le_right (ackMax_le_iff.2 fun x hx hkey => ?_)
    exact ackMax_le_iff.1 (le_refl _) x (List.mem_flatMap.2 ⟨a, ha, hx⟩) hkey
  exact exec_invariant_along (fun _ _ _ hs hok hstep => bounded_step hs hok hstep)
    (init_bounded table fun key => le_sup_left) hacks h

/-- **No acknowledgement is lost or made up.** -/
theorem read_states_survive (batchThreshold : ℕ) (table : UserId × ChannelId → WithBot MessageId)
    (pre post : List (Action ι)) (b : ι) (x : ReadUpdate) (s t : ReadCluster ι)
    (hpre : exec (step batchThreshold) (init ι table)
      (pre ++ [.node b (.server (.update x))]) = some s)
    (hpost : exec (step batchThreshold) s post = some t)
    (hspares : Along (step batchThreshold) (Spares b) s post) :
    (x.2.2 : WithBot MessageId) ≤ t.table (keyOf x) ⊔ (t.nodes b).memory (keyOf x) ∧
    (∀ key, s.table key ≤ t.table key) ∧
    Bounded (fun key => table key ⊔
      ackMax (acks (pre ++ [.node b (.server (.update x))] ++ post)) key) t := by
  refine ⟨run_reach (reach_update hpre) hspares hpost, fun key => ?_,
    run_bounded (exec_append.2 ⟨s, hpre, hpost⟩)⟩
  exact exec_le (f := fun r : ReadCluster ι => r.table key)
    (fun _ _ _ hstep => table_step hstep key) hpost

/-- User 1 acknowledges on two nodes. On the first one `flush_now` takes the entry while the flusher
iterates; the second one crashes with a failed chunk in memory before that is written. -/
def crashRun : List (Action Bool) :=
  [.node true (.server .countPending), .node true (.server .tick), .node true (.server .iterate),
    .node false (.server (.update (1, 20, 7))), .node false (.server .countPending),
    .node false (.server .tick), .node true .call, .node true (.flushCollected [(1, 20)]),
    .node true .flushAdvance, .node true (.collected [(1, 20)]), .node true (.server .advance),
    .node true .flushAdvance, .node true (.server .advance), .node false (.server .iterate),
    .node false (.collected [(1, 20)]), .node false (.server .advance),
    .node false (.server .advance), .node false (.server (.answer false)), .crash false,
    .node true .flushAdvance]

theorem read_states_survive_crashRun :
    ∃ s t, exec (step 1000) (init Bool fun _ => ⊥)
        ([] ++ [.node true (.server (.update (1, 20, 9)))]) = some s ∧
      exec (step 1000) s crashRun = some t ∧
      ((9 : MessageId) : WithBot MessageId) ≤
        t.table (1, 20) ⊔ (t.nodes true).memory (1, 20) ∧
      (∀ key, s.table key ≤ t.table key) ∧
      Bounded (fun key => (⊥ : WithBot MessageId) ⊔
        ackMax (acks ([] ++ [.node true (.server (.update (1, 20, 9)))] ++ crashRun)) key) t :=
  ⟨_, _, rfl, rfl, read_states_survive 1000 (fun _ => ⊥) [] crashRun true (1, 20, 9) _ _ rfl rfl
    (by decide)⟩

/-! ## Convergence -/

/-- No node loses anything. -/
def Lossless (s : ReadCluster ι) (a : Action ι) : Prop := ∀ b, s.Spares b a

instance [Fintype ι] (s : ReadCluster ι) (a : Action ι) : Decidable (s.Lossless a) :=
  inferInstanceAs (Decidable (∀ b, s.Spares b a))

theorem table_of_empty {table : UserId × ChannelId → WithBot MessageId} {as : List (Action ι)}
    (hlossless : Along (step batchThreshold) Lossless (init ι table) as)
    (h : exec (step batchThreshold) (init ι table) as = some t)
    (hempty : ∀ b, (t.nodes b).Empty) :
    t.table = fun key => table key ⊔ ackMax (acks as) key := by
  funext key
  refine le_antisymm (run_bounded h key).1 (sup_le ?_ (ackMax_le_iff.2 fun x hx hkey => ?_))
  · exact exec_le (f := fun r : ReadCluster ι => r.table key)
      (fun _ _ _ hstep => table_step hstep key) h
  · obtain ⟨b, hb⟩ := mem_acks_iff.1 hx
    obtain ⟨pre, post, rfl⟩ := List.append_of_mem hb
    have hsplit : pre ++ .node b (.server (.update x)) :: post =
        pre ++ [.node b (.server (.update x))] ++ post := by
      rw [List.append_assoc]
      rfl
    rw [hsplit] at h hlossless
    obtain ⟨s, hpre, hpost⟩ := exec_append.1 h
    have hspares : Along (step batchThreshold) (Spares b) s post :=
      ((along_append hpre).1 hlossless).2.imp fun _ _ hall => hall b
    have hreach := run_reach (reach_update hpre) hspares hpost
    rwa [hkey, ReadNode.memory_of_empty (hempty b), sup_bot_eq] at hreach

theorem ackMax_congr {xs ys : List ReadUpdate} (h : ∀ x, x ∈ xs ↔ x ∈ ys)
    (key : UserId × ChannelId) : ackMax xs key = ackMax ys key :=
  eq_of_forall_ge_iff fun bound => by simp only [ackMax_le_iff, h]

/-- **Clusters that took the same acknowledgements end with the same table.** -/
theorem read_states_converge {κ : Type} [DecidableEq κ] (batchThreshold batchThreshold' : ℕ)
    (table : UserId × ChannelId → WithBot MessageId) (as : List (Action ι)) (bs : List (Action κ))
    (s : ReadCluster ι) (t : ReadCluster κ)
    (hs : exec (step batchThreshold) (init ι table) as = some s)
    (ht : exec (step batchThreshold') (init κ table) bs = some t)
    (has : Along (step batchThreshold) Lossless (init ι table) as)
    (hbs : Along (step batchThreshold') Lossless (init κ table) bs)
    (hsempty : ∀ b, (s.nodes b).Empty) (htempty : ∀ b, (t.nodes b).Empty)
    (hacks : ∀ x, x ∈ acks as ↔ x ∈ acks bs) :
    s.table = t.table ∧ s.table = fun key => table key ⊔ ackMax (acks as) key := by
  rw [table_of_empty has hs hsempty, table_of_empty hbs ht htempty]
  exact ⟨funext fun key => by rw [ackMax_congr hacks], rfl⟩

/-- The node that failed writes its buffer when it shuts down. -/
def retryRun : List (Action Bool) :=
  [.node true (.server (.update (1, 20, 9))), .node false (.server (.update (1, 20, 7))),
    .node true (.server .countPending), .node false (.server .countPending),
    .node true (.server .tick), .node true (.server .iterate), .node true (.collected [(1, 20)]),
    .node true (.server .advance), .node true (.server .advance),
    .node true (.server (.answer true)), .node true (.server .advance),
    .node false (.server .tick), .node false (.server .iterate), .node false (.collected [(1, 20)]),
    .node false (.server .advance), .node false (.server .advance),
    .node false (.server (.answer false)), .node false (.server .advance),
    .node false (.server .advance), .node false (.server .advance),
    .node false (.server .advance), .node false (.server .advance), .node false .call,
    .node false (.flushCollected [(1, 20)]), .node false .flushAdvance, .node false .flushAdvance,
    .node false .flushAdvance, .crash false]

/-- One node takes both. -/
def oneNodeRun : List (Action Unit) :=
  [.node () (.server (.update (1, 20, 7))), .node () (.server (.update (1, 20, 9))),
    .node () (.server .countPending), .node () (.server .tick), .node () (.server .iterate),
    .node () (.collected [(1, 20)]), .node () (.server .advance), .node () (.server .advance),
    .node () (.server (.answer true))]

theorem read_states_converge_retry :
    ∃ s t, exec (step 1000) (init Bool fun _ => ⊥) retryRun = some s ∧
      exec (step 100) (init Unit fun _ => ⊥) oneNodeRun = some t ∧
      s.table = t.table ∧
      s.table = fun key => (⊥ : WithBot MessageId) ⊔ ackMax (acks retryRun) key := by
  refine ⟨_, _, rfl, rfl, read_states_converge 1000 100 (fun _ => ⊥) retryRun oneNodeRun _ _ rfl rfl
    (by decide) (by decide) (fun b => ?_) (fun _ => ⟨rfl, rfl, rfl⟩) fun x => ?_⟩
  · cases b <;> exact ⟨rfl, rfl, rfl⟩
  · simp [acks, retryRun, oneNodeRun, Action.acks, Shutdown.acks, Buffered.acks, or_comm]

end ReadCluster

end RustRelay
