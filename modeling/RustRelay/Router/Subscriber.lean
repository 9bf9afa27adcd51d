import RustRelay.Core.Receiver
import RustRelay.Core.Run
import RustRelay.Router.RedisBridge

/-!
# The Redis subscriber

Every node has a task that receives what is published on two channels and delivers it to its own
sessions. The task is `while let Ok(message) = message_stream.recv().await`, over a bounded
broadcast receiver; publishers run ahead of it as far as they like, and messages have any channel
and any content.

**Theorem (`subscriber_handles_iff`).** The subscriber has handled every message that its receiver
returns, to one that is polled at the same moments and goes on after an error, *if and only if* no
message was returned after an overrun. What is returned are the messages published, in their order,
without those that were overwritten.

No content of a message matters: a payload that is no string, or cannot be read, or is on another
channel is passed over (`handleMessage`). What ends the loop is the `Err` that `recv` returns once
after an overrun: `overrun_ends_subscriber`.
-/

namespace RustRelay

open Machine Overrun

/-! ## One message -/

/-- The payload on `rustrelay:presence`. -/
structure PresencePayload where
  sourceNode : String
  userId : UserId
  status : PresenceStatus
  deriving DecidableEq, Repr

/-- A message of Redis, with `value.as_str()`. -/
structure RedisMessage where
  channel : String
  value : Option String
  deriving DecidableEq, Repr

section
variable (json : Json) (presence : Serde PresencePayload) (sessions : SessionStore) (p : Pipes)
  (myNodeId : String)

/-- `handle_cross_node_presence`. -/
def handleCrossNodePresence (raw : String) : Pipes :=
  match presence.fromStr raw with
  | .error _ => p
  | .ok payload =>
    if payload.sourceNode = myNodeId then p
    else (sessions.sendToUsers p sessions.connectedUserIds
      (.presenceUpdate payload.userId payload.status)).2

/-- The body of the loop. -/
def handleMessage (message : RedisMessage) : Pipes :=
  match message.value with
  | none => p
  | some payload =>
    if message.channel = "rustrelay:events" then
      handleCrossNodeEvent json sessions p myNodeId payload
    else if message.channel = "rustrelay:presence" then
      handleCrossNodePresence presence sessions p myNodeId payload
    else p

end

/-! ## The task -/

structure Subscriber where
  /-- The receiver. After the loop has ended it stands for one that is polled on. -/
  channel : Channel RedisMessage
  /-- The loop has not ended. -/
  running : Bool
  /-- The channels of the node's sessions. -/
  pipes : Pipes
  /-- The messages whose handling is done. -/
  handled : List RedisMessage
  /-- `recv` has returned `Lagged`. -/
  overran : Bool

namespace Subscriber

def init (pipes : Pipes) : Subscriber := ⟨.init, true, pipes, [], false⟩

inductive Action
  /-- A message is published on a channel of the subscriber. -/
  | publish (message : RedisMessage)
  /-- `recv` returns, and its message is handled with these sessions. -/
  | poll (sessions : SessionStore)
  /-- The Redis client is gone. -/
  | close
  /-- Other tasks send to sessions, and sessions end. -/
  | others (pipes : Pipes)

variable (capacity : ℕ) (json : Json) (presence : Serde PresencePayload) (myNodeId : String)

def step (s : Subscriber) : Action → Option Subscriber
  | .publish message =>
    if s.channel.receiver.closed then none
    else some { s with channel := s.channel.send capacity message }
  | .poll sessions => match s.channel.recv with
    | (.ok message, channel) =>
      if s.running then some { s with
        channel
        pipes := handleMessage json presence sessions s.pipes myNodeId message
        handled := s.handled ++ [message] }
      else some { s with channel }
    -- `while let Ok(..)` ends on every `Err`.
    | (.lagged _, channel) => some { s with channel, running := false, overran := true }
    | (.closed, channel) => some { s with channel, running := false }
    | (.pending, _) => none
  | .close => some { s with channel := s.channel.close }
  | .others pipes => some { s with pipes }

/-- A message is returned after an overrun. -/
def AfterOverrun (s : Subscriber) : Action → Prop
  | .poll _ => s.overran = true ∧ ∃ message, s.channel.receiver.recv.1 = .ok message
  | _ => False

/-- The loop runs until the first error; after `Closed` nothing is returned. -/
structure Inv (s : Subscriber) : Prop where
  wf : s.channel.WF
  handled : s.handled.length ≤ s.channel.returned.length
  running : s.running = true → s.overran = false
  stopped : s.running = false → s.overran = true ∨ s.channel.receiver.Done

variable {capacity json presence myNodeId} {s t : Subscriber} {a : Action}

theorem poll_cases {sessions : SessionStore}
    (h : s.step capacity json presence myNodeId (.poll sessions) = some t) :
    (∃ message, s.channel.receiver.recv.1 = .ok message ∧
      t.channel.returned = s.channel.returned ++ [message] ∧ t.running = s.running ∧
      t.overran = s.overran ∧ t.channel = s.channel.recv.2 ∧
      t.handled = if s.running then s.handled ++ [message] else s.handled) ∨
    ((∀ message, s.channel.receiver.recv.1 ≠ .ok message) ∧ t.channel = s.channel.recv.2 ∧
      t.channel.returned = s.channel.returned ∧ t.handled = s.handled ∧ t.running = false ∧
      (t.overran = true ∨ t.overran = s.overran ∧ s.channel.receiver.Done)) := by
  simp only [step, Channel.recv] at h
  split at h
  · next message channel hrecv =>
    obtain ⟨hok, rfl⟩ := Prod.mk.inj hrecv
    left
    refine ⟨message, hok, ?_⟩
    split_ifs at h with hrunning <;> obtain rfl := Option.some.inj h
    · simp [hok, hrunning, Channel.recv]
    · simp [hok, hrunning, Channel.recv]
  · next n channel hrecv =>
    obtain ⟨hlagged, rfl⟩ := Prod.mk.inj hrecv
    obtain rfl := Option.some.inj h
    refine .inr ⟨by simp [hlagged], rfl, ?_, rfl, rfl, .inl rfl⟩
    simp only [hlagged]
  · next channel hrecv =>
    obtain ⟨hclosed, rfl⟩ := Prod.mk.inj hrecv
    obtain rfl := Option.some.inj h
    refine .inr ⟨by simp [hclosed], rfl, ?_, rfl, rfl, .inr ⟨rfl, Receiver.done_of_closed hclosed⟩⟩
    simp only [hclosed]
  · exact absurd h nofun

theorem step_inv (h : s.Inv) (hstep : s.step capacity json presence myNodeId a = some t) :
    t.Inv := by
  cases a with
  | publish message =>
    simp only [step] at hstep
    split_ifs at hstep with hclosed
    obtain rfl := Option.some.inj hstep
    refine ⟨Channel.wf_send h.wf capacity message, h.handled, h.running, ?_⟩
    intro hstopped
    apply (h.stopped hstopped).imp_right
    intro hdone
    exact absurd hdone.2.2 hclosed
  | poll sessions =>
    have hwf : t.channel.WF := by
      rcases poll_cases hstep with ⟨_, -, -, -, -, hchannel, -⟩ | ⟨-, hchannel, -⟩ <;>
        rw [hchannel] <;> exact Channel.wf_recv h.wf
    rcases poll_cases hstep with ⟨message, hok, hreturned, hrun, hover, -, hhandled⟩ |
      ⟨-, hchannel, hreturned, hhandled, hrun, hover⟩
    · refine ⟨hwf, ?_, ?_, ?_⟩
      · rw [hreturned, hhandled, List.length_append]
        split_ifs
        · rw [List.length_append]
          exact Nat.add_le_add_right h.handled 1
        · exact h.handled.trans (Nat.le_add_right _ 1)
      · rw [hrun, hover]
        exact h.running
      · intro hstopped
        rw [hrun] at hstopped
        rw [hover]
        refine .inl ((h.stopped hstopped).resolve_right fun hdone => ?_)
        rw [hdone.recv] at hok
        cases hok
    · refine ⟨hwf, ?_, ?_, ?_⟩
      · rw [hreturned, hhandled]
        exact h.handled
      · intro hrunning
        rw [hrun] at hrunning
        cases hrunning
      · intro _
        apply hover.imp_right
        intro hdone
        rw [hchannel, Channel.recv, hdone.2.recv]
        exact hdone.2
  | close =>
    obtain rfl := Option.some.inj hstep
    refine ⟨Channel.wf_close h.wf, h.handled, h.running, ?_⟩
    intro hstopped
    exact (h.stopped hstopped).imp_right fun hdone => ⟨hdone.1, hdone.2.1, rfl⟩
  | others pipes =>
    obtain rfl := Option.some.inj hstep
    exact ⟨h.wf, h.handled, h.running, h.stopped⟩

/-- **One step.** All that was returned stays handled exactly if nothing is returned after an
overrun. -/
theorem handled_iff (h : s.Inv) (hstep : s.step capacity json presence myNodeId a = some t) :
    t.handled = t.channel.returned ↔ s.handled = s.channel.returned ∧ ¬s.AfterOverrun a := by
  cases a with
  | publish message =>
    simp only [step] at hstep
    split_ifs at hstep
    obtain rfl := Option.some.inj hstep
    exact (and_iff_left id).symm
  | poll sessions =>
    rcases poll_cases hstep with ⟨message, hok, hreturned, -, -, -, hhandled⟩ |
      ⟨hno, -, hreturned, hhandled, -⟩
    · cases hrunning : s.running with
      | true =>
        rw [hhandled, hreturned, hrunning, if_pos rfl, List.append_left_inj]
        refine (and_iff_left fun hafter => ?_).symm
        have hover := hafter.1
        rw [h.running hrunning] at hover
        cases hover
      | false =>
        -- The message is lost, and the loop did not end because the client is gone.
        have hover : s.overran = true := by
          apply (h.stopped hrunning).resolve_right
          intro hdone
          rw [hdone.recv] at hok
          cases hok
        refine iff_of_false (fun heq => ?_) fun hboth => hboth.2 ⟨hover, message, hok⟩
        have hlength : t.handled.length = t.channel.returned.length := by rw [heq]
        rw [hhandled, hreturned, hrunning, if_neg Bool.false_ne_true, List.length_append] at hlength
        have hle := h.handled
        simp only [List.length_singleton] at hlength
        omega
    · rw [hreturned, hhandled]
      refine (and_iff_left fun hafter => ?_).symm
      obtain ⟨-, message, hok⟩ := hafter
      exact hno message hok
  | close | others =>
    obtain rfl := Option.some.inj hstep
    exact (and_iff_left id).symm

theorem init_inv (pipes : Pipes) : (init pipes).Inv :=
  ⟨Channel.wf_init, le_rfl, fun _ => rfl, fun h => absurd h nofun⟩

/-- **The subscriber handles all that its receiver returns exactly if nothing is returned after an
overrun**; and what is returned, with what is kept, is what was published without what was
overwritten. -/
theorem subscriber_handles_iff (capacity : ℕ) (json : Json) (presence : Serde PresencePayload)
    (myNodeId : String) (pipes : Pipes) (as : List Action) (s : Subscriber)
    (hs : exec (step capacity json presence myNodeId) (init pipes) as = some s) :
    (s.handled = s.channel.returned ↔
      Along (step capacity json presence myNodeId) (fun s a => ¬s.AfterOverrun a) (init pipes) as) ∧
    (s.channel.returned ++ s.channel.receiver.queue).Sublist s.channel.sent ∧
    (s.channel.returned ++ s.channel.overwritten ++ s.channel.receiver.queue).Perm
      s.channel.sent := by
  have hinv : s.Inv := exec_invariant (fun _ _ _ h hstep => step_inv h hstep) (init_inv pipes) hs
  refine ⟨?_, hinv.wf.sublist, hinv.wf.perm⟩
  rw [exec_iff_along (Q := fun s => s.handled = s.channel.returned)
    (fun _ _ _ h hstep => step_inv h hstep) (fun _ _ _ h hstep => handled_iff h hstep)
    (init_inv pipes) hs]
  exact and_iff_right rfl

def onlineText : String :=
  "\x7b\"source_node\":\"node-1\",\"status\":\"online\"," ++
  "\"user_id\":\"00000000-0000-0000-0000-000000000007\"\x7d"

/-- A codec for user 7 being online on `node-1`, and for nothing else. -/
def onePresence : Serde PresencePayload := .single ⟨"node-1", 7, .online⟩ onlineText

def noJson : Json :=
  ⟨.single (.heartbeatAck 0) "ack", .single ⟨"b", [], "ack"⟩ "payload"⟩

/-- User 7 is online. -/
def online : RedisMessage := ⟨"rustrelay:presence", some onlineText⟩

/-- A payload that is no string, one that cannot be read, one on another channel, and then the
presence of user 7. -/
def badPayloads : List Action :=
  [.publish ⟨"rustrelay:events", none⟩, .publish ⟨"rustrelay:events", some "?"⟩,
    .publish ⟨"other", some "?"⟩, .publish online, .poll .new, .poll .new, .poll .new, .poll .new]

theorem subscriber_handles_iff_badPayloads :
    ∃ s, exec (step 32 noJson onePresence "node-2") (init ⟨fun _ => [], fun _ => false⟩)
        badPayloads = some s ∧ s.handled.length = 4 ∧
      (s.handled = s.channel.returned ↔
        Along (step 32 noJson onePresence "node-2") (fun s a => ¬s.AfterOverrun a)
          (init ⟨fun _ => [], fun _ => false⟩) badPayloads) :=
  ⟨_, rfl, rfl, (subscriber_handles_iff 32 noJson onePresence "node-2" _ badPayloads _ rfl).1⟩

/-- A burst of one message more than the receiver holds, before the subscriber polls. -/
def burst : List Action := List.replicate 33 (.publish online) ++ [.poll .new, .poll .new]

/-- **The overrun ends the subscriber**: one message is overwritten, the loop ends, and the next
one, which the receiver returns, is not handled. -/
theorem overrun_ends_subscriber :
    ∃ s, exec (step 32 noJson onePresence "node-2") (init ⟨fun _ => [], fun _ => false⟩) burst =
        some s ∧ s.channel.overwritten = [online] ∧ s.running = false ∧
      s.channel.returned = [online] ∧ s.handled = [] :=
  ⟨_, rfl, rfl, rfl, rfl, rfl⟩

end Subscriber

end RustRelay
