import RustRelay.Router.Order

/-!
# Two messages at many sessions

Calls of `handle_send` on one node deliver with one loop each, and nothing keeps one loop from
passing another: of two recipients, one may see `m` before `m'` and the other `m'` before `m`. (A
call of the REST handler is a connection of its own here.)

**Theorem (`recipients_agree`).** In every run, if the delivery loop of the call that sends `m` was
over before the one of the call that sends `m'`, on the same node, began, then every session of the
node that receives both receives `m` first.

A queue only grows. What is added to it is of a loop, or came from another node, or is no message;
so once its loop is over a message is not added on its own node any more.
-/

namespace RustRelay

open Machine InOrder

/-- The operation whose delivery loop is not over. -/
def ReaderPc.delivers : ReaderPc → Option SendOp
  | .next | .persist _ | .loop _ [] _ => none
  | .lookup op | .loop op (_ :: _) _ | .send op _ _ _ | .push op _ _ _ => some op

theorem ReaderPc.stored_of_delivers {pc : ReaderPc} {op : SendOp} (h : pc.delivers = some op) :
    pc.stored = some op := by
  cases pc with
  | next => exact absurd h nofun
  | persist op => exact absurd h nofun
  | lookup op => exact h
  | loop op members remoteTargets =>
    cases members with
    | nil => exact absurd h nofun
    | cons member members => exact h
  | send op member members remoteTargets => exact h
  | push op sessions members remoteTargets => exact h

/-- The members of the channel are still to be looked up. -/
def ReaderPc.AtLookup : ReaderPc → Prop
  | .lookup _ => True
  | _ => False

/-- Where one step may take a reader. -/
inductive ReaderPc.GoesTo (issued : List MessageId) (pc : ReaderPc) : ReaderPc → Prop
  | stays : GoesTo issued pc pc
  | ends {pc'} (hpc' : pc'.stored = none) : GoesTo issued pc pc'
  | stores {op} (hpc : pc = .persist op) (hnew : op.answers.messageId ∉ issued) :
    GoesTo issued pc (.lookup op)
  | goesOn {op pc'} (hpc : pc.delivers = some op) (hpc' : pc'.stored = some op)
    (hpast : ¬pc'.AtLookup) : GoesTo issued pc pc'

namespace Relay

variable {ι κ : Type} (clients : κ → Connected ι)

/-- The message was stored, and the loop that delivers it is over. -/
def LoopOver (s : Relay ι κ) (k : κ) (e : ServerEvent) : Prop :=
  e ∈ s.sent k ∧ ∀ op, (s.readers k).delivers = some op → op.event (clients k).userId ≠ e

/-- The message was not stored, or the members of its channel are still to be looked up. -/
def LoopAhead (s : Relay ι κ) (k : κ) (e : ServerEvent) : Prop :=
  e ∈ s.sent k → ∃ op, s.readers k = .lookup op ∧ op.event (clients k).userId = e

variable [DecidableEq ι] [DecidableEq κ] {json : Json} {names : ι → String}
  {clients : κ → Connected ι} {s s' : Relay ι κ}

/-! ## What one step adds -/

/-- What may be added to the queues of a node: what a reader of the node is sending, what the node
handles, and what is no message. -/
def Adds (clients : κ → Connected ι) (s : Relay ι κ) (b : ι) (e : ServerEvent) : Prop :=
  ∀ m, e = .messageCreate m →
    (∃ k op sessions members remoteTargets, (clients k).node = b ∧
      s.readers k = .push op sessions members remoteTargets ∧ op.event (clients k).userId = e) ∨
    ∃ hd, s.handling b = some hd ∧ hd.event = e

omit [DecidableEq κ] in
/-- A send adds at most its event, to a queue of its node. -/
theorem sendOn_queue {b' : ι} {e : ServerEvent} (hadds : Adds clients s b' e) (sid' : SessionId)
    (b : ι) (sid : SessionId) : ∃ l, ((s.sendOn b' sid' e).pipes b).queue sid =
      (s.pipes b).queue sid ++ l ∧ ∀ x ∈ l, Adds clients s b x := by
  have hsame : ∃ l, (s.pipes b).queue sid = (s.pipes b).queue sid ++ l ∧
      ∀ x ∈ l, Adds clients s b x :=
    ⟨[], (List.append_nil _).symm, fun x hx => absurd hx List.not_mem_nil⟩
  simp only [sendOn, Function.update_apply]
  split_ifs with hb
  · subst hb
    rcases (s.pipes b).send_queue sid' e sid with hq | ⟨rfl, hq⟩
    · rw [hq]
      exact hsame
    · rw [hq]
      refine ⟨[e], rfl, ?_⟩
      intro x hx
      obtain rfl := List.mem_singleton.1 hx
      exact hadds
  · exact hsame

theorem step_queue {a : Action ι κ} (hstep : s.step json names clients a = some s') (b : ι)
    (sid : SessionId) : ∃ l, (s'.pipes b).queue sid = (s.pipes b).queue sid ++ l ∧
      ∀ e ∈ l, Adds clients s b e := by
  have hsame (t : Relay ι κ) (hpipes : (t.pipes b).queue = (s.pipes b).queue) :
      ∃ l, (t.pipes b).queue sid = (s.pipes b).queue sid ++ l ∧ ∀ e ∈ l, Adds clients s b e := by
    refine ⟨[], ?_, fun e he => absurd he List.not_mem_nil⟩
    rw [hpipes, List.append_nil]
  cases a with
  | push k =>
    simp only [step] at hstep
    split at hstep
    · next op session sessions members remoteTargets hpc =>
      obtain rfl := Option.some.inj hstep
      apply sendOn_queue
      intro m hm
      exact .inl ⟨k, op, _, members, remoteTargets, rfl, hpc, rfl⟩
    · obtain rfl := Option.some.inj hstep
      exact hsame _ rfl
    · cases hstep
  | deliver b' =>
    simp only [step] at hstep
    split at hstep
    · obtain rfl := Option.some.inj hstep
      exact hsame _ rfl
    · obtain rfl := Option.some.inj hstep
      exact hsame _ rfl
    · next event us session sessions hhd =>
      obtain rfl := Option.some.inj hstep
      apply sendOn_queue
      intro m hm
      exact .inr ⟨_, hhd, rfl⟩
    · cases hstep
  | other b' sid' event =>
    simp only [step] at hstep
    split at hstep
    · cases hstep
    · next hevent =>
      obtain rfl := Option.some.inj hstep
      apply sendOn_queue
      intro m hm
      exact absurd hm (hevent m)
  | hangUp b' sid' =>
    obtain rfl := Option.some.inj hstep
    apply hsame
    simp only [Function.update_apply]
    split_ifs with hb
    · rw [hb]
    · rfl
  | registry b' a =>
    simp only [step, Option.map_eq_some_iff] at hstep
    obtain ⟨r, -, rfl⟩ := hstep
    exact hsame _ rfl
  | lose b' a n | refresh b' db fetch instant channelId | invalidate b' channelId =>
    obtain rfl := Option.some.inj hstep
    exact hsame _ rfl
  | next k op | persist k db | lookup k db | check k | get k | publish k | poll b' a
  | write b' sid' =>
    -- These touch no queue, wherever they go.
    simp only [step] at hstep
    repeat' split at hstep
    all_goals cases hstep <;> exact hsame _ rfl

omit [DecidableEq ι] in
/-- A reader moves, and the others stay. -/
theorem goesTo_setReader {t : Relay ι κ} (ht : t.readers = s.readers) {k' : κ} {pc : ReaderPc}
    (hpc : (s.readers k').GoesTo s.issued pc) (k : κ) :
    (s.readers k).GoesTo s.issued ((t.setReader k' pc).readers k) := by
  simp only [setReader, ht, Function.update_apply]
  split_ifs with hk
  · subst hk
    exact hpc
  · exact .stays

theorem readers_persist {k' : κ} {db : Database}
    (hstep : s.step json names clients (.persist k' db) = some s') (k : κ) :
    (s.readers k).GoesTo s.issued (s'.readers k) := by
  simp only [step] at hstep
  split at hstep
  · next op hpc =>
    split at hstep
    · obtain rfl := Option.some.inj hstep
      have hrecord : (s.record k' none).readers = s.readers := rfl
      exact goesTo_setReader hrecord (.ends rfl) k
    · split_ifs at hstep with hnew
      obtain rfl := Option.some.inj hstep
      have hrecord : (s.record k' (some (op.event (clients k').userId))).readers = s.readers := rfl
      exact goesTo_setReader hrecord (.stores hpc hnew) k
  · cases hstep

theorem readers_lookup {k' : κ} {db : Database}
    (hstep : s.step json names clients (.lookup k' db) = some s') (k : κ) :
    (s.readers k).GoesTo s.issued (s'.readers k) := by
  simp only [step] at hstep
  split at hstep
  · next op hpc =>
    have hrouter (router : MessageRouter) :
        (s.setRouter (clients k').node router).readers = s.readers := rfl
    split at hstep
    · obtain rfl := Option.some.inj hstep
      exact goesTo_setReader (hrouter _) (.ends rfl) k
    · obtain rfl := Option.some.inj hstep
      refine goesTo_setReader (hrouter _) ?_ k
      exact .goesOn (by rw [hpc]; rfl) rfl not_false
  · cases hstep

theorem readers_check {k' : κ} (hstep : s.step json names clients (.check k') = some s') (k : κ) :
    (s.readers k).GoesTo s.issued (s'.readers k) := by
  simp only [step] at hstep
  split at hstep
  · next op member members remoteTargets hpc =>
    have hdelivers : (s.readers k').delivers = some op := by rw [hpc]; rfl
    split_ifs at hstep
    · obtain rfl := Option.some.inj hstep
      refine goesTo_setReader rfl ?_ k
      exact .goesOn hdelivers rfl not_false
    · obtain rfl := Option.some.inj hstep
      refine goesTo_setReader rfl ?_ k
      exact .goesOn hdelivers rfl not_false
  · cases hstep

theorem readers_push {k' : κ} (hstep : s.step json names clients (.push k') = some s') (k : κ) :
    (s.readers k).GoesTo s.issued (s'.readers k) := by
  simp only [step] at hstep
  split at hstep
  · next op session sessions members remoteTargets hpc =>
    obtain rfl := Option.some.inj hstep
    have hsend : (s.sendOn (clients k').node session.sessionId
      (op.event (clients k').userId)).readers = s.readers := rfl
    refine goesTo_setReader hsend ?_ k
    exact .goesOn (by rw [hpc]; rfl) rfl not_false
  · next op members remoteTargets hpc =>
    obtain rfl := Option.some.inj hstep
    refine goesTo_setReader rfl ?_ k
    exact .goesOn (by rw [hpc]; rfl) rfl not_false
  · cases hstep

theorem readers_publish {k' : κ} (hstep : s.step json names clients (.publish k') = some s')
    (k : κ) : (s.readers k).GoesTo s.issued (s'.readers k) := by
  simp only [step] at hstep
  split at hstep
  · split at hstep
    · obtain rfl := Option.some.inj hstep
      exact goesTo_setReader rfl (.ends rfl) k
    · obtain rfl := Option.some.inj hstep
      exact goesTo_setReader rfl (.ends rfl) k
    · obtain rfl := Option.some.inj hstep
      have hnet (raws : ι → List String) :
          (s.setNet (clients k').node raws).readers = s.readers := rfl
      exact goesTo_setReader (hnet _) (.ends rfl) k
  · cases hstep

theorem step_readers {a : Action ι κ} (hstep : s.step json names clients a = some s') (k : κ) :
    (s.readers k).GoesTo s.issued (s'.readers k) := by
  have hsame (t : Relay ι κ) (ht : t.readers = s.readers) :
      (s.readers k).GoesTo s.issued (t.readers k) := by
    rw [ht]
    exact .stays
  cases a with
  | next k' op =>
    simp only [step] at hstep
    split at hstep
    · obtain rfl := Option.some.inj hstep
      exact goesTo_setReader rfl (.ends rfl) k
    · cases hstep
  | persist k' db => exact readers_persist hstep k
  | lookup k' db => exact readers_lookup hstep k
  | check k' => exact readers_check hstep k
  | get k' =>
    simp only [step] at hstep
    split at hstep
    · next op member members remoteTargets hpc =>
      obtain rfl := Option.some.inj hstep
      refine goesTo_setReader rfl ?_ k
      exact .goesOn (by rw [hpc]; rfl) rfl not_false
    · cases hstep
  | push k' => exact readers_push hstep k
  | publish k' => exact readers_publish hstep k
  | registry b a =>
    simp only [step, Option.map_eq_some_iff] at hstep
    obtain ⟨r, -, rfl⟩ := hstep
    exact hsame _ rfl
  | lose b a n | hangUp b sid | refresh b db fetch instant channelId | invalidate b channelId =>
    obtain rfl := Option.some.inj hstep
    exact hsame _ rfl
  | poll b a | deliver b | other b sid event | write b sid =>
    simp only [step] at hstep
    repeat' split at hstep
    all_goals cases hstep <;> exact hsame _ rfl

/-- The messages of a connection only become more. -/
theorem step_sent {a : Action ι κ} (hstep : s.step json names clients a = some s') (k : κ) :
    s.sent k <+: s'.sent k := by
  have hsame (t : Relay ι κ) (ht : t.created = s.created) : s.sent k <+: t.sent k := by
    have hsent : s.sent k = t.sent k := by rw [sent, sent, ht]
    exact hsent ▸ List.prefix_rfl
  cases a with
  | persist k' db =>
    have hrecord (event : Option ServerEvent) : s.sent k <+: (s.record k' event).sent k := by
      rw [sent_record]
      split_ifs with hk
      · rw [hk]
        exact List.prefix_append _ _
      · exact List.prefix_rfl
    simp only [step] at hstep
    split at hstep
    · split at hstep
      · obtain rfl := Option.some.inj hstep
        exact hrecord none
      · split_ifs at hstep
        obtain rfl := Option.some.inj hstep
        exact hrecord _
    · cases hstep
  | registry b a =>
    simp only [step, Option.map_eq_some_iff] at hstep
    obtain ⟨r, -, rfl⟩ := hstep
    exact hsame _ rfl
  | next k' op | lookup k' db | check k' | get k' | push k' | publish k' | poll b a | lose b a n
  | deliver b | other b sid event | write b sid | hangUp b sid
  | refresh b db fetch instant channelId | invalidate b channelId =>
    simp only [step] at hstep
    repeat' split at hstep
    all_goals cases hstep <;> exact hsame _ rfl

omit [DecidableEq κ] in
theorem mem_underway_setNet {a : ι} {raws : ι → List String} {a' b : ι} {e : ServerEvent}
    (he : e ∈ (s.setNet a raws).underway json names a' b) :
    e ∈ s.underway json names a' b ∨
      (a' = a ∧ ∃ raw ∈ raws b, accepts json names b raw = some e) := by
  simp only [underway, setNet, Function.update_apply] at he ⊢
  split_ifs at he with ha
  · rcases List.mem_append.1 he with he | he
    · exact .inl (List.mem_append_left _ he)
    · exact .inr ⟨ha, List.mem_filterMap.1 he⟩
  · exact .inl he

omit [DecidableEq κ] in
/-- Payloads that arrive or are lost put nothing new underway. -/
theorem mem_underway_of_subset {a b : ι} {raws : List String} (hraws : raws ⊆ s.net a b)
    {a' b' : ι} {e : ServerEvent}
    (he : e ∈ (s.setNet a (Function.update (s.net a) b raws)).underway json names a' b') :
    e ∈ s.underway json names a' b' := by
  rcases mem_underway_setNet he with he | ⟨rfl, raw, hraw, haccept⟩
  · exact he
  · refine List.mem_append_right _ (List.mem_filterMap.2 ⟨raw, ?_, haccept⟩)
    simp only [Function.update_apply] at hraw
    split_ifs at hraw with hb
    · rw [hb]
      exact hraws hraw
    · exact hraw

omit [DecidableEq κ] in
theorem mem_underway_setHandling {b : ι} {hd : Option Handling} {a' b' : ι} {e : ServerEvent}
    (he : e ∈ (s.setHandling b hd).underway json names a' b') :
    e ∈ s.underway json names a' b' ∨ (b' = b ∧ ∃ x, hd = some x ∧ x.event = e) := by
  simp only [underway, setHandling, Function.update_apply] at he ⊢
  split_ifs at he with hb
  · rcases List.mem_append.1 he with he | he
    · obtain ⟨x, hx, hxe⟩ := List.mem_map.1 he
      exact .inr ⟨hb, x, Option.mem_toList.1 hx, hxe⟩
    · exact .inl (List.mem_append_right _ he)
  · exact .inl he

/-- Where an event that is underway to a node after a step comes from: it was underway to it, or a
reader publishes it. -/
def ComesFrom (json : Json) (names : ι → String) (clients : κ → Connected ι) (s : Relay ι κ)
    (b : ι) (e : ServerEvent) : Prop :=
  (∃ a, e ∈ s.underway json names a b) ∨
    ∃ k op remoteTargets, s.readers k = .loop op [] remoteTargets ∧
      op.event (clients k).userId = e

omit [DecidableEq ι] [DecidableEq κ] in
theorem comesFrom_of_eq {t : Relay ι κ} (hnet : t.net = s.net) (hhandling : t.handling = s.handling)
    {a b : ι} {e : ServerEvent} (he : e ∈ t.underway json names a b) :
    s.ComesFrom json names clients b e := by
  rw [underway, hnet, hhandling] at he
  exact .inl ⟨a, he⟩

theorem underway_publish (hjson : json.RoundTrip) (h : s.Inv json names clients) {k : κ}
    (hstep : s.step json names clients (.publish k) = some s') {a b : ι} {e : ServerEvent}
    (he : e ∈ s'.underway json names a b) : s.ComesFrom json names clients b e := by
  simp only [step] at hstep
  split at hstep
  · next op remoteTargets hpc =>
    split at hstep
    · obtain rfl := Option.some.inj hstep
      exact comesFrom_of_eq rfl rfl he
    · obtain rfl := Option.some.inj hstep
      exact comesFrom_of_eq rfl rfl he
    · next raw hpublish =>
      obtain rfl := Option.some.inj hstep
      obtain ⟨hnone, -⟩ | ⟨text, raw', htext, hraw, -, heq⟩ := publishRemote_ok hpublish
      · cases hnone
      · obtain rfl := Option.some.inj heq
        rw [h.nodeId] at hraw
        have he : e ∈ (s.setNet (clients k).node fun b =>
          s.net (clients k).node b ++ [raw]).underway json names a b := he
        rcases mem_underway_setNet he with he | ⟨rfl, raw', hraw', haccept⟩
        · exact .inl ⟨a, he⟩
        · rcases List.mem_append.1 hraw' with hraw' | hraw'
          · refine .inl ⟨(clients k).node, List.mem_append_right _ ?_⟩
            exact List.mem_filterMap.2 ⟨raw', hraw', haccept⟩
          · obtain rfl := List.mem_singleton.1 hraw'
            rw [accepts_published hjson htext hraw] at haccept
            split_ifs at haccept
            exact .inr ⟨k, op, remoteTargets, hpc, Option.some.inj haccept⟩
  · cases hstep

theorem underway_poll {b' a' : ι} (hstep : s.step json names clients (.poll b' a') = some s')
    {a b : ι} {e : ServerEvent} (he : e ∈ s'.underway json names a b) :
    s.ComesFrom json names clients b e := by
  simp only [step] at hstep
  split at hstep
  · next raw raws hnone hnet =>
    obtain rfl := Option.some.inj hstep
    rcases mem_underway_setHandling he with he | ⟨rfl, x, hx, rfl⟩
    · refine .inl ⟨a, mem_underway_of_subset ?_ he⟩
      rw [hnet]
      exact List.subset_cons_self raw raws
    · obtain ⟨p, hp, rfl⟩ := Option.map_eq_some_iff.1 hx
      refine .inl ⟨a', List.mem_append_right _ (List.mem_filterMap.2 ⟨raw, ?_, ?_⟩)⟩
      · rw [hnet]
        exact List.mem_cons_self
      · rw [accepts, hp]
        rfl
  · cases hstep

omit [DecidableEq κ] in
/-- A node goes on with what it handles. -/
theorem comesFrom_setHandling {t : Relay ι κ} (hnet : t.net = s.net)
    (hhandling : t.handling = s.handling) {b' : ι} {hd hd' : Handling}
    (hhd : s.handling b' = some hd) {a b : ι} {e : ServerEvent}
    (he : e ∈ (t.setHandling b' (some hd')).underway json names a b)
    (hevent : hd'.event = hd.event) : s.ComesFrom json names clients b e := by
  rcases mem_underway_setHandling he with he | ⟨rfl, x, hx, rfl⟩
  · exact comesFrom_of_eq hnet hhandling he
  · obtain rfl := Option.some.inj hx
    refine .inl ⟨a, List.mem_append_left _ ?_⟩
    rw [hhd, hevent]
    exact List.mem_singleton_self _

theorem underway_deliver {b' : ι} (hstep : s.step json names clients (.deliver b') = some s')
    {a b : ι} {e : ServerEvent} (he : e ∈ s'.underway json names a b) :
    s.ComesFrom json names clients b e := by
  simp only [step] at hstep
  split at hstep
  · obtain rfl := Option.some.inj hstep
    rcases mem_underway_setHandling he with he | ⟨-, x, hx, -⟩
    · exact .inl ⟨a, he⟩
    · cases hx
  · next hhd =>
    obtain rfl := Option.some.inj hstep
    exact comesFrom_setHandling rfl rfl hhd he rfl
  · next event us session sessions hhd =>
    obtain rfl := Option.some.inj hstep
    have hhandling : (s.sendOn b' session.sessionId event).handling = s.handling := rfl
    exact comesFrom_setHandling rfl hhandling hhd he rfl
  · cases hstep

theorem step_underway (hjson : json.RoundTrip) (h : s.Inv json names clients) {a : Action ι κ}
    (hstep : s.step json names clients a = some s') {a₀ b : ι} {e : ServerEvent}
    (he : e ∈ s'.underway json names a₀ b) : s.ComesFrom json names clients b e := by
  cases a with
  | publish k => exact underway_publish hjson h hstep he
  | poll b' a' => exact underway_poll hstep he
  | lose b' a' n =>
    obtain rfl := Option.some.inj hstep
    exact .inl ⟨a₀, mem_underway_of_subset (List.eraseIdx_sublist _ n).subset he⟩
  | deliver b' => exact underway_deliver hstep he
  | registry b' a =>
    simp only [step, Option.map_eq_some_iff] at hstep
    obtain ⟨r, -, rfl⟩ := hstep
    exact comesFrom_of_eq rfl rfl he
  | next k op | persist k db | lookup k db | check k | get k | push k | other b' sid event
  | write b' sid | hangUp b' sid | refresh b' db fetch instant channelId
  | invalidate b' channelId =>
    simp only [step] at hstep
    repeat' split at hstep
    all_goals cases hstep <;> exact comesFrom_of_eq rfl rfl he

/-! ## What a run adds -/

omit [DecidableEq ι] [DecidableEq κ] in
/-- A message with a new id was not sent. -/
theorem Inv.notMem_sent (h : s.Inv json names clients) {op : SendOp}
    (hnew : op.answers.messageId ∉ s.issued) {userId : UserId} (k : κ) :
    op.event userId ∉ s.sent k := by
  intro hmem
  obtain ⟨m, hm, hid⟩ := h.messages k _ hmem
  obtain rfl := ServerEvent.messageCreate.inj hm
  exact hnew hid

/-- The message of a reader that is still to look up the members is nowhere. -/
def Fresh (json : Json) (names : ι → String) (clients : κ → Connected ι) (s : Relay ι κ) : Prop :=
  ∀ k op, s.readers k = .lookup op → ∀ a b sid,
    op.event (clients k).userId ∉ s.path json names a b sid

/-- What comes onto a path of a session was on one, or is at a reader that is past the lookup. -/
theorem step_path (hjson : json.RoundTrip) (h : s.Inv json names clients) {a : Action ι κ}
    (hstep : s.step json names clients a = some s') {a₀ b : ι} {sid : SessionId}
    {m : MessagePayload} (hm : .messageCreate m ∈ s'.path json names a₀ b sid) :
    (∃ a₁, .messageCreate m ∈ s.path json names a₁ b sid) ∨
      ∃ k op, (s.readers k).stored = some op ∧ ¬(s.readers k).AtLookup ∧
        op.event (clients k).userId = .messageCreate m := by
  rcases List.mem_append.1 hm with hm | hm
  · obtain ⟨l, hl, hadds⟩ := step_queue hstep b sid
    rw [hl] at hm
    rcases List.mem_append.1 hm with hm | hm
    · exact .inl ⟨a₀, List.mem_append_left _ hm⟩
    · rcases hadds _ hm m rfl with ⟨k, op, sessions, members, remoteTargets, -, hpc, hop⟩ |
        ⟨hd, hhd, hevent⟩
      · refine .inr ⟨k, op, by rw [hpc]; rfl, ?_, hop⟩
        rw [hpc]
        exact not_false
      · refine .inl ⟨a₀, List.mem_append_right _ (List.mem_append_left _ ?_)⟩
        rw [hhd, ← hevent]
        exact List.mem_singleton_self _
  · rcases step_underway hjson h hstep hm with ⟨a₁, hm⟩ | ⟨k, op, remoteTargets, hpc, hop⟩
    · exact .inl ⟨a₁, List.mem_append_right _ hm⟩
    · refine .inr ⟨k, op, by rw [hpc]; rfl, ?_, hop⟩
      rw [hpc]
      exact not_false

theorem step_fresh (hjson : json.RoundTrip) (h : s.Inv json names clients)
    (hfresh : s.Fresh json names clients) {a : Action ι κ}
    (hstep : s.step json names clients a = some s') : s'.Fresh json names clients := by
  intro k op hpc a₀ b sid hpath
  have hold := step_path (m := ⟨op.answers.messageId, op.channelId, (clients k).userId, op.content,
    op.answers.createdAt, none⟩) hjson h hstep hpath
  have hgoes := step_readers hstep k
  rw [hpc] at hgoes
  generalize hpc₀ : s.readers k = pc at hgoes
  cases hgoes with
  | stays =>
    rcases hold with ⟨a₁, hpath⟩ | ⟨k', op', hop', hpast, hevent⟩
    · exact hfresh k op hpc₀ a₁ b sid hpath
    · -- Two readers are not at one message.
      have hmem : op.event (clients k).userId ∈ s.sent k := h.latest_mem (by rw [hpc₀]; rfl)
      have hmem' := h.latest_mem hop'
      rw [hevent] at hmem'
      obtain rfl := h.disjoint k k' _ hmem hmem'
      rw [hpc₀] at hpast
      exact hpast trivial
  | ends hnone => cases hnone
  | stores _ hnew =>
    have hsent : ∃ k', op.event (clients k).userId ∈ s.sent k' := by
      rcases hold with ⟨a₁, hpath⟩ | ⟨k', op', hop', -, hevent⟩
      · exact h.mem_path hpath
      · have hmem := h.latest_mem hop'
        rw [hevent] at hmem
        exact ⟨k', hmem⟩
    obtain ⟨k', hk'⟩ := hsent
    exact h.notMem_sent hnew k' hk'
  | goesOn _ _ hpast => exact absurd trivial hpast

/-- A loop that is over stays over. -/
theorem step_loopOver (h : s.Inv json names clients) {k : κ} {e : ServerEvent}
    (hover : s.LoopOver clients k e) {a : Action ι κ}
    (hstep : s.step json names clients a = some s') : s'.LoopOver clients k e := by
  obtain ⟨hmem, hdone⟩ := hover
  refine ⟨(step_sent hstep k).subset hmem, ?_⟩
  intro op hop
  have hstored := ReaderPc.stored_of_delivers hop
  have hgoes := step_readers hstep k
  generalize s'.readers k = pc at hop hstored hgoes
  cases hgoes with
  | stays => exact hdone op hop
  | ends hnone => exact absurd (hnone.symm.trans hstored) nofun
  | stores _ hnew =>
    obtain rfl := Option.some.inj hop
    rintro rfl
    exact h.notMem_sent hnew k hmem
  | goesOn hop' hstored' _ =>
    obtain rfl := Option.some.inj (hstored'.symm.trans hstored)
    exact hdone _ hop'

omit [DecidableEq ι] [DecidableEq κ] in
/-- Nothing adds a message on its node when its loop is over. -/
theorem LoopOver.not_adds (h : s.Inv json names clients) {k : κ} {e : ServerEvent}
    (hover : s.LoopOver clients k e) : ¬Adds clients s (clients k).node e := by
  obtain ⟨hmem, hdone⟩ := hover
  obtain ⟨m, rfl, -⟩ := h.messages k e hmem
  intro hadds
  rcases hadds m rfl with ⟨k', op, sessions, members, remoteTargets, -, hpc, hop⟩ |
    ⟨hd, hhd, hevent⟩
  · have hstored : (s.readers k').stored = some op := by rw [hpc]; rfl
    have hmem' := h.latest_mem hstored
    rw [hop] at hmem'
    obtain rfl := h.disjoint k k' _ hmem hmem'
    exact hdone op (by rw [hpc]; rfl) hop
  · apply h.notMem_underway k _ hmem
    rw [← hevent]
    apply List.mem_append_left
    rw [hhd]
    exact List.mem_singleton_self _

theorem exec_sent {as : List (Action ι κ)}
    (hrun : exec (step json names clients) s as = some s') (k : κ) : s.sent k <+: s'.sent k :=
  exec_invariant (I := fun t => s.sent k <+: t.sent k)
    (fun _ _ _ h hstep => h.trans (step_sent hstep k)) List.prefix_rfl hrun

/-- When the loop of a message is over, the queues of its node gain other events only. -/
theorem exec_queue (hjson : json.RoundTrip) (h : s.Inv json names clients) {k : κ}
    {e : ServerEvent} (hover : s.LoopOver clients k e) {as : List (Action ι κ)}
    (hrun : exec (step json names clients) s as = some s') (sid : SessionId) :
    ∃ l, (s'.pipes (clients k).node).queue sid = (s.pipes (clients k).node).queue sid ++ l ∧
      e ∉ l := by
  obtain ⟨l, hl, hother⟩ := exec_append_forall (p := fun x => x ≠ e)
    (I := fun t : Relay ι κ => t.Inv json names clients ∧ t.LoopOver clients k e)
    (f := fun t => (t.pipes (clients k).node).queue sid)
    (fun _ _ _ ht hstep => ⟨step_inv hjson ht.1 hstep, step_loopOver ht.1 ht.2 hstep⟩)
    (fun t a t' ht hstep => by
      obtain ⟨l, hl, hadds⟩ := step_queue hstep (clients k).node sid
      refine ⟨l, hl, ?_⟩
      rintro x hx rfl
      exact ht.2.not_adds ht.1 (hadds x hx))
    ⟨h, hover⟩ hrun
  exact ⟨l, hl, fun he => hother e he rfl⟩

/-! ## Agreement -/

omit [DecidableEq ι] [DecidableEq κ] in
theorem received_queue {b : ι} {sid : SessionId} {n : ℕ} {e : ServerEvent}
    (h : (s.received b sid)[n]? = some e) : ((s.pipes b).queue sid)[n]? = some e := by
  rw [received, List.getElem?_take] at h
  split_ifs at h
  exact h

/-- **Of two loops on a node, one after the other, every session hears the first one first.** -/
theorem recipients_agree {routers : ι → MessageRouter} (hjson : json.RoundTrip)
    (hrouters : ∀ b, (routers b).nodeId = names b) {as bs : List (Action ι κ)}
    (hrun : exec (step json names clients) (init routers) as = some s)
    (hrest : exec (step json names clients) s bs = some s') {k k' : κ}
    (hnode : (clients k').node = (clients k).node) {e e' : ServerEvent}
    (hover : s.LoopOver clients k e) (hahead : s.LoopAhead clients k' e') (he' : e' ∈ s'.sent k')
    (sid : SessionId) {m n : ℕ} (hm : (s'.received (clients k).node sid)[m]? = some e)
    (hn : (s'.received (clients k).node sid)[n]? = some e') : m < n := by
  obtain ⟨h, hfresh⟩ := exec_invariant
    (I := fun t : Relay ι κ => t.Inv json names clients ∧ t.Fresh json names clients)
    (fun _ _ _ h hstep => ⟨step_inv hjson h.1 hstep, step_fresh hjson h.1 h.2 hstep⟩)
    ⟨init_inv hrouters, fun _ _ hpc => absurd hpc nofun⟩ hrun
  have h' : s'.Inv json names clients :=
    exec_invariant (fun _ _ _ h hstep => step_inv hjson h hstep) h hrest
  obtain ⟨l, hl, hel⟩ := exec_queue hjson h hover hrest sid
  have hqueue : e' ∉ (s.pipes (clients k).node).queue sid := by
    intro hmem
    obtain ⟨m', rfl, -⟩ := h'.messages k' e' he'
    obtain ⟨k₀, hk₀⟩ := h.queue _ sid m' hmem
    obtain rfl := h'.disjoint k₀ k' _ ((exec_sent hrest k₀).subset hk₀) he'
    obtain ⟨op, hpc, hop⟩ := hahead hk₀
    apply hfresh k₀ op hpc (clients k).node (clients k).node sid
    rw [hop]
    exact List.mem_append_left _ hmem
  have hm := received_queue hm
  have hn := received_queue hn
  rw [hl] at hm hn
  exact lt_of_append hel hqueue hm hn

/-- A connection of user 1, and one of user 2, on the only node. -/
def twoUsers (k : Bool) : Connected Unit := ⟨(), cond k 1 2⟩

def oneNode (_ : Unit) : MessageRouter := (twoNodes ⟨100, 1⟩ ⟨200, 2⟩ true).router

/-- Each user has a session. -/
def registerBoth : List (Action Unit Bool) :=
  [.registry () (.callInsert 0 ⟨100, 1⟩), .registry () (.op 0), .registry () (.op 0),
    .registry () (.callInsert 1 ⟨200, 2⟩), .registry () (.op 1), .registry () (.op 1)]

/-- A reader sends to the next member, who has one session. -/
def sendNext (k : Bool) : List (Action Unit Bool) := [.check k, .get k, .push k, .push k]

/-- Both sessions write what they have. -/
def writeBoth : List (Action Unit Bool) :=
  [.write () 100, .write () 100, .write () 200, .write () 200]

/-- User 1 has sent to both. -/
def firstSent : List (Action Unit Bool) :=
  registerBoth ++ [.next true (chat 8), .persist true pair, .lookup true pair] ++
    sendNext true ++ sendNext true

/-- Then user 2 sends. -/
def secondSent : List (Action Unit Bool) :=
  [.publish true, .next false (chat 9), .persist false pair, .lookup false pair] ++
    sendNext false ++ sendNext false ++ [.publish false] ++ writeBoth

theorem recipients_agree_inTurn :
    ∃ s s', exec (step chatJson (fun _ => "node-1") twoUsers) (init oneNode) firstSent = some s ∧
      exec (step chatJson (fun _ => "node-1") twoUsers) s secondSent = some s' ∧
      s'.received () 200 = [(chat 8).event 1, (chat 9).event 2] ∧
      ∀ m n : ℕ, (s'.received () 200)[m]? = some ((chat 8).event 1) →
        (s'.received () 200)[n]? = some ((chat 9).event 2) → m < n := by
  have hjson : chatJson.RoundTrip :=
    ⟨Serde.two_roundTrip _ _ (by decide +kernel), Serde.two_roundTrip _ _ (by decide +kernel)⟩
  have hrouters (b : Unit) : (oneNode b).nodeId = "node-1" := rfl
  have hnode : (twoUsers false).node = (twoUsers true).node := rfl
  have hrun : ((exec (step chatJson (fun _ => "node-1") twoUsers) (init oneNode) firstSent).bind
      fun s => (exec (step chatJson (fun _ => "node-1") twoUsers) s secondSent).map fun s' =>
        (s.sent true, (s.readers true).delivers.isNone, s.sent false, s'.sent false,
          s'.received () 200)) =
      some ([(chat 8).event 1], true, [], [(chat 9).event 2],
        [(chat 8).event 1, (chat 9).event 2]) := by decide +kernel
  obtain ⟨s, hs, hrest⟩ := Option.bind_eq_some_iff.1 hrun
  obtain ⟨s', hs', heq⟩ := Option.map_eq_some_iff.1 hrest
  simp only [Prod.mk.injEq] at heq
  obtain ⟨hsent, hover, hahead, hsent', hreceived⟩ := heq
  have hfirst : s.LoopOver twoUsers true ((chat 8).event 1) := by
    refine ⟨by rw [hsent]; exact List.mem_singleton_self _, ?_⟩
    intro op hop
    rw [Option.isNone_iff_eq_none.1 hover] at hop
    exact absurd hop nofun
  have hsecond : s.LoopAhead twoUsers false ((chat 9).event 2) := by
    intro hmem
    rw [hahead] at hmem
    exact absurd hmem List.not_mem_nil
  have hlast : (chat 9).event 2 ∈ s'.sent false := by
    rw [hsent']
    exact List.mem_singleton_self _
  refine ⟨s, s', hs, hs', hreceived, ?_⟩
  intro m n hm hn
  exact recipients_agree hjson hrouters hs hs' hnode hfirst hsecond hlast 200 hm hn

/-- The loop of user 2 passes the loop of user 1 after its first member. -/
def overtaking : List (Action Unit Bool) :=
  [.next true (chat 8), .persist true pair, .lookup true pair, .next false (chat 9),
    .persist false pair, .lookup false pair] ++ sendNext true ++ sendNext false ++
    sendNext false ++ [.publish false] ++ sendNext true ++ [.publish true] ++ writeBoth

/-- Both sessions are in the registry. -/
def BothRegistered (s : Relay Unit Bool) : Prop :=
  ⟨100, 1⟩ ∈ (s.registry ()).store.vec 1 ∧ ⟨200, 2⟩ ∈ (s.registry ()).store.vec 2

instance (s : Relay Unit Bool) : Decidable s.BothRegistered := inferInstanceAs (Decidable (_ ∧ _))

/-- **Recipients need not agree.** Both sessions are registered when the two calls start, and as
long as they run. -/
theorem overlapping_loops_disagree :
    ∃ s s', exec (step chatJson (fun _ => "node-1") twoUsers) (init oneNode) registerBoth =
        some s ∧
      exec (step chatJson (fun _ => "node-1") twoUsers) s overtaking = some s' ∧
      Along (step chatJson (fun _ => "node-1") twoUsers) (fun t _ => t.BothRegistered) s
        overtaking ∧ s'.BothRegistered ∧
      s'.received () 100 = [(chat 8).event 1, (chat 9).event 2] ∧
      s'.received () 200 = [(chat 9).event 2, (chat 8).event 1] := by
  have hrun : ((exec (step chatJson (fun _ => "node-1") twoUsers) (init oneNode)
      registerBoth).bind fun s =>
        (exec (step chatJson (fun _ => "node-1") twoUsers) s overtaking).map fun s' =>
          (decide (Along (step chatJson (fun _ => "node-1") twoUsers)
            (fun t _ => t.BothRegistered) s overtaking), decide s'.BothRegistered,
            s'.received () 100, s'.received () 200)) =
      some (true, true, [(chat 8).event 1, (chat 9).event 2],
        [(chat 9).event 2, (chat 8).event 1]) := by decide +kernel
  obtain ⟨s, hs, hrest⟩ := Option.bind_eq_some_iff.1 hrun
  obtain ⟨s', hs', heq⟩ := Option.map_eq_some_iff.1 hrest
  simp only [Prod.mk.injEq, decide_eq_true_eq] at heq
  obtain ⟨halong, hboth, hone, htwo⟩ := heq
  exact ⟨s, s', hs, hs', halong, hboth, hone, htwo⟩

end Relay

end RustRelay
