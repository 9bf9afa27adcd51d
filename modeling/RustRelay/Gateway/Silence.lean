import RustRelay.Gateway.Heartbeat

/-!
# Clients that come back

A client that has been silent is found by a scan of the monitor, and its session is removed when
the pass comes to it. Its connection reads on.

**Theorem (`dispatch_registered_iff`).** In every run, every message is dispatched on a connection
whose session is registered, *if and only if* none is dispatched on a connection that a scan has
found silent for more than the timeout and that the pass has not still to come to. Nothing stops the
reader of a reaped connection: `reaped_acts`.
-/

namespace RustRelay

open Machine

theorem SessionStore.ids_nodup {st : SessionStore}
    (hvec : ∀ u, ((st.vec u).map Session.sessionId).Nodup)
    (hone : ∀ u v, ∀ x ∈ st.vec u, ∀ y ∈ st.vec v, x.sessionId = y.sessionId → u = v) :
    (st.sessions.entries.flatMap fun entry => entry.2.map Session.sessionId).Nodup := by
  have hentry (entry : (_ : UserId) × List Session) (he : entry ∈ st.sessions.entries) :
      st.vec entry.1 = entry.2 :=
    vec_of_lookup ((List.mem_dlookup_iff st.sessions.nodupKeys).2 he)
  refine List.nodup_flatMap.2 ⟨fun entry he => hentry entry he ▸ hvec entry.1, ?_⟩
  have hkeys : st.sessions.entries.Pairwise fun e e' => e.1 ≠ e'.1 :=
    List.pairwise_map.1 st.sessions.nodupKeys
  refine hkeys.imp_of_mem fun {e e'} he he' hne => ?_
  intro sid hsid hsid'
  obtain ⟨x, hx, rfl⟩ := List.mem_map.1 hsid
  obtain ⟨y, hy, hid⟩ := List.mem_map.1 hsid'
  refine hne (hone _ _ x ?_ y ?_ hid.symm)
  · rw [hentry e he]
    exact hx
  · rw [hentry e' he']
    exact hy

namespace Serving

/-! ## Silence -/

/-- The session that an action hears of: its connection, or a frame of it. -/
def Action.heard : Action → Option SessionId
  | .connect x => some x.sessionId
  | a => a.frame

/-- The seconds since the session was last heard of. -/
def silence (sid : SessionId) (as : List Action) : ℕ :=
  as.foldl (fun seconds a => if a.heard = some sid then 0 else seconds + a.seconds) 0

/-- A session connected. -/
def Connected (sid : SessionId) (as : List Action) : Prop :=
  ∃ x, .connect x ∈ as ∧ x.sessionId = sid

/-- A scan of the run found the session silent for more than the timeout. -/
def FoundSilent (timeoutSecs : ℕ) (sid : SessionId) (as : List Action) : Prop :=
  ∃ pre post, as = pre ++ .scan :: post ∧ Connected sid pre ∧ timeoutSecs < silence sid pre

theorem silence_snoc (sid : SessionId) (as : List Action) (a : Action) : silence sid (as ++ [a]) =
    if a.heard = some sid then 0 else silence sid as + a.seconds := by
  rw [silence, List.foldl_concat, ← silence]

theorem foundSilent_snoc {timeoutSecs : ℕ} {sid : SessionId} {as : List Action} {a : Action} :
    FoundSilent timeoutSecs sid (as ++ [a]) ↔ FoundSilent timeoutSecs sid as ∨
      a = .scan ∧ Connected sid as ∧ timeoutSecs < silence sid as := by
  constructor
  · intro hfound
    obtain ⟨pre, post, hsplit, hsilent⟩ := hfound
    rcases snoc_eq_split.1 hsplit with ⟨rfl, hscan, -⟩ | ⟨mid, -, hbefore⟩
    · exact .inr ⟨hscan.symm, hsilent⟩
    · exact .inl ⟨pre, mid, hbefore, hsilent⟩
  · intro hfound
    rcases hfound with ⟨pre, post, rfl, hsilent⟩ | ⟨rfl, hsilent⟩
    · exact ⟨pre, post ++ [a], by simp, hsilent⟩
    · exact ⟨as, [], rfl, hsilent⟩

variable {timeoutSecs : ℕ} {s t : Serving} {a : Action} {as : List Action} {sid : SessionId}

/-! ## Distinct sessions -/

/-- No `Vec` and no list of stale sessions has a session twice, and what the pass went over it does
not come to again. -/
structure Single (s : Serving) : Prop where
  vec : ∀ u, ((s.sessions.vec u).map Session.sessionId).Nodup
  stale : (s.stale.map Prod.snd).Nodup
  passed : ∀ sid ∈ s.passed, sid ∉ s.stale.map Prod.snd

theorem Inv.user_of_mem (h : s.Inv) {u : UserId} {x : Session} (hx : x ∈ s.sessions.vec u) :
    s.user x.sessionId = some u ∧ x.sessionId ∉ s.passed := by
  have huser := h.known u x hx
  have hsession : x = ⟨x.sessionId, u⟩ := by rw [← h.owner u x hx]
  exact ⟨huser, (h.registered _ _ huser).1 (hsession ▸ hx)⟩

theorem Single.congr (h : s.Single) (hsessions : t.sessions = s.sessions)
    (hstale : t.stale = s.stale) (hpassed : t.passed = s.passed) : t.Single :=
  ⟨hsessions ▸ h.vec, hstale ▸ h.stale, by rw [hpassed, hstale]; exact h.passed⟩

theorem nodup_remove (h : s.Single) (u : UserId) (sid : SessionId) (v : UserId) :
    (((s.sessions.remove u sid).2.vec v).map Session.sessionId).Nodup := by
  rw [SessionStore.remove_vec]
  split_ifs
  · exact (h.vec v).sublist (List.filter_sublist.map _)
  · exact h.vec v

theorem step_single (hinv : s.Inv) (hs : s.Single) (h : s.step timeoutSecs a = some t) :
    t.Single := by
  cases a with
  | connect x =>
    simp only [step] at h
    split_ifs at h with hopened
    obtain rfl := Option.some.inj h
    refine ⟨fun u => ?_, hs.stale, hs.passed⟩
    have hvec : (s.sessions.insert x).vec u =
        if u = x.userId then s.sessions.vec u ++ [x] else s.sessions.vec u :=
      SessionStore.vec_insert s.sessions x u
    rw [hvec]
    split_ifs
    · -- the id is new
      rw [List.map_append]
      refine (hs.vec u).append (List.nodup_singleton _) ?_
      intro sid hsid hnew
      obtain ⟨y, hy, rfl⟩ := List.mem_map.1 hsid
      rw [← List.mem_singleton.1 hnew] at hopened
      exact hopened (hinv.opened _ u (hinv.user_of_mem hy).1)
    · exact hs.vec u
  | scan =>
    simp only [step] at h
    split_ifs at h
    obtain rfl := Option.some.inj h
    have hids := SessionStore.ids_nodup hs.vec fun u v x hx y hy hid => by
      have huser := (hinv.user_of_mem hx).1
      rw [hid, (hinv.user_of_mem hy).1] at huser
      exact (Option.some.inj huser).symm
    have hstale : ((s.sessions.collectStale s.lastHeartbeat (fun _ => s.now) timeoutSecs).map
        Prod.snd).Nodup := SessionStore.collectStale_ids_nodup hids
    refine ⟨hs.vec, hstale, ?_⟩
    intro sid hpassed hmem
    obtain ⟨⟨u, sid'⟩, hfound, rfl⟩ := List.mem_map.1 hmem
    obtain ⟨x, hx, rfl, -⟩ := SessionStore.mem_findStaleSessions.1 hfound
    exact (hinv.user_of_mem hx).2 hpassed
  | reap =>
    simp only [step] at h
    split at h
    · cases h
    · next u sid rest hrest =>
      obtain rfl := Option.some.inj h
      have hstale := hs.stale
      rw [hrest, List.map_cons, List.nodup_cons] at hstale
      refine ⟨nodup_remove hs u sid, hstale.2, ?_⟩
      intro sid' hsid' hmem
      rcases List.mem_cons.1 hsid' with rfl | hsid'
      · exact hstale.1 hmem
      · refine hs.passed sid' hsid' ?_
        rw [hrest]
        exact List.mem_cons_of_mem _ hmem
  | close sid =>
    simp only [step] at h
    split at h <;> cases h
    exact ⟨nodup_remove hs _ sid, hs.stale, hs.passed⟩
  | ready | text | dispatch | ping =>
    simp only [step] at h
    split at h <;> cases h
    exact hs.congr rfl rfl rfl
  | tick =>
    obtain rfl := Option.some.inj h
    exact hs.congr rfl rfl rfl

/-! ## What the monitor has found -/

/-- The sessions that were opened have connected, the heartbeats are as old as the silence, and
what a scan has found silent the pass went over or has still to come to. -/
structure Found (timeoutSecs : ℕ) (as : List Action) (s : Serving) : Prop where
  connected : ∀ sid, Connected sid as ↔ sid ∈ s.opened
  silence : ∀ sid ∈ s.opened, s.lastHeartbeat sid + silence sid as = s.now
  found : ∀ sid u, s.user sid = some u →
    (FoundSilent timeoutSecs sid as ↔ sid ∈ s.passed ∨ sid ∈ s.stale.map Prod.snd)

theorem connected_snoc : Connected sid (as ++ [a]) ↔ Connected sid as ∨
    ∃ x, a = .connect x ∧ x.sessionId = sid := by
  simp only [Connected, List.mem_append, List.mem_singleton, or_and_right, exists_or]
  simp only [eq_comm]

theorem Found.snoc_silence (hs : s.Found timeoutSecs as) (h : s.step timeoutSecs a = some t)
    (hsid : sid ∈ t.opened) : t.lastHeartbeat sid + Serving.silence sid (as ++ [a]) = t.now := by
  rw [silence_snoc, now_step h]
  by_cases hold : sid ∈ s.opened
  · have hheard : a.heard = some sid ↔ a.frame = some sid := by
      cases a with
      | connect x =>
        simp only [step] at h
        split_ifs at h with hopened
        refine iff_of_false (fun hx => ?_) fun h => by cases h
        rw [Option.some.inj hx] at hopened
        exact hopened hold
      | _ => rfl
    rw [lastHeartbeat_step h hold]
    by_cases hframe : a.frame = some sid
    · rw [if_pos hframe, if_pos (hheard.2 hframe), Action.seconds_of_frame hframe]
    · rw [if_neg hframe, if_neg (hframe ∘ hheard.1), ← Nat.add_assoc, hs.silence sid hold]
  · obtain ⟨x, rfl, rfl⟩ := ((opened_step_iff h).1 hsid).resolve_left hold
    simp only [step] at h
    split_ifs at h
    obtain rfl := Option.some.inj h
    simp [Action.heard, Action.seconds]

theorem Found.snoc_scan (hinv : s.Inv) (hs : s.Found timeoutSecs as)
    (h : s.step timeoutSecs .scan = some t) {u : UserId} (huser : s.user sid = some u) :
    FoundSilent timeoutSecs sid (as ++ [.scan]) ↔
      sid ∈ t.passed ∨ sid ∈ t.stale.map Prod.snd := by
  simp only [step] at h
  split_ifs at h with hstale
  obtain rfl := Option.some.inj h
  have hopened := hinv.opened sid u huser
  have hfound := hs.found sid u huser
  rw [hstale, List.map_nil, or_iff_left List.not_mem_nil] at hfound
  rw [foundSilent_snoc, hfound]
  refine or_congr_right' fun hpassed => ?_
  have hsilence := hs.silence sid hopened
  constructor
  · intro hsilent
    have hregistered := (hinv.registered sid u huser).2 hpassed
    have hlong : timeoutSecs < s.now - s.lastHeartbeat sid := by omega
    exact List.mem_map.2 ⟨(u, sid),
      SessionStore.mem_findStaleSessions.2 ⟨⟨sid, u⟩, hregistered, rfl, hlong⟩, rfl⟩
  · intro hmem
    obtain ⟨⟨v, sid'⟩, hscan, rfl⟩ := List.mem_map.1 hmem
    obtain ⟨x, -, -, hlong⟩ := SessionStore.mem_findStaleSessions.1 hscan
    refine ⟨rfl, (hs.connected _).2 hopened, ?_⟩
    dsimp only at hsilence ⊢
    omega

theorem found_snoc (hinv : s.Inv) (hs : s.Found timeoutSecs as)
    (h : s.step timeoutSecs a = some t) : t.Found timeoutSecs (as ++ [a]) := by
  refine ⟨fun sid => ?_, fun sid => hs.snoc_silence h, fun sid u huser => ?_⟩
  · rw [connected_snoc, opened_step_iff h, hs.connected]
  · -- what the other steps keep
    have hsame (hscan : a ≠ .scan) {v : UserId} (hold : s.user sid = some v)
        (hlist : sid ∈ t.passed ∨ sid ∈ t.stale.map Prod.snd ↔
          sid ∈ s.passed ∨ sid ∈ s.stale.map Prod.snd) :
        FoundSilent timeoutSecs sid (as ++ [a]) ↔
          sid ∈ t.passed ∨ sid ∈ t.stale.map Prod.snd := by
      rw [foundSilent_snoc, or_iff_left fun hnow => hscan hnow.1, hlist]
      exact hs.found sid v hold
    cases a with
    | scan =>
      have hsessions : t.user sid = s.user sid := by
        simp only [step] at h
        split_ifs at h
        obtain rfl := Option.some.inj h
        rfl
      exact hs.snoc_scan hinv h (hsessions ▸ huser)
    | connect x =>
      simp only [step] at h
      split_ifs at h with hopened
      obtain rfl := Option.some.inj h
      have hlookup : (s.connections.insert x.sessionId ⟨x.userId, .opening⟩).lookup sid =
          if sid = x.sessionId then some ⟨x.userId, .opening⟩ else s.connections.lookup sid :=
        DashMap.lookup_insert_ite _ _ _ _
      rw [user, hlookup] at huser
      split_ifs at huser with hsid
      · -- a new session was not found, and is in no list
        rw [foundSilent_snoc, or_iff_left fun hnow => absurd hnow.1 (by simp), hsid]
        refine iff_of_false (fun hfound => ?_) ?_
        · obtain ⟨pre, post, rfl, ⟨y, hy, hid⟩, -⟩ := hfound
          exact hopened ((hs.connected _).1 ⟨y, List.mem_append_left _ hy, hid⟩)
        · rintro (hpassed | hstale)
          · exact hopened (hinv.passed _ hpassed)
          · obtain ⟨p, hp, hid⟩ := List.mem_map.1 hstale
            exact hopened (hid ▸ (hinv.stale p hp).1)
      · exact hsame (by simp) huser Iff.rfl
    | reap =>
      simp only [step] at h
      split at h
      · cases h
      · next v sid' rest hrest =>
        obtain rfl := Option.some.inj h
        refine hsame (by simp) huser ?_
        rw [hrest, List.map_cons, List.mem_cons, List.mem_cons]
        exact or_left_comm.trans or_assoc.symm |>.symm
    | close sid' =>
      simp only [step] at h
      split at h <;> cases h
      rw [user, DashMap.lookup_erase_ite] at huser
      split_ifs at huser
      · cases huser
      · exact hsame (by simp) huser Iff.rfl
    | ready | text | dispatch =>
      simp only [step] at h
      split at h <;> cases h
      next hc => exact hsame (by simp) ((user_setPhase hc _ sid).symm.trans huser) Iff.rfl
    | ping =>
      simp only [step] at h
      split at h <;> cases h
      exact hsame (by simp) huser Iff.rfl
    | tick =>
      obtain rfl := Option.some.inj h
      exact hsame (by simp) huser Iff.rfl

theorem exists_user_of_dispatch (h : s.step timeoutSecs (.dispatch sid) = some t) :
    ∃ u, s.user sid = some u := by
  simp only [step] at h
  split at h
  · next u text hc => exact ⟨u, by rw [user, hc]; rfl⟩
  · cases h

/-! ## Whole runs -/

theorem exec_found (h : exec (step timeoutSecs) init as = some s) :
    s.Inv ∧ s.Single ∧ s.Found timeoutSecs as := by
  apply exec_history (J := fun as s => s.Inv ∧ s.Single ∧ s.Found timeoutSecs as) ?_ ?_
    (along_true init as) h
  · refine ⟨init_inv, ⟨fun _ => List.nodup_nil, List.nodup_nil, fun _ hsid => absurd hsid
      List.not_mem_nil⟩, ⟨fun sid => ?_, fun _ hsid => absurd hsid List.not_mem_nil,
      fun _ _ huser => absurd huser fun h => by cases h⟩⟩
    exact iff_of_false (fun hconnected => hconnected.elim fun _ hx => List.not_mem_nil hx.1)
      List.not_mem_nil
  · intro as r a t hold _ _ ht
    obtain ⟨hinv, hsingle, hfound⟩ := hold
    exact ⟨step_inv hinv ht, step_single hinv hsingle ht, found_snoc hinv hfound ht⟩

/-- **Every message is dispatched by a registered connection if and only if** none is dispatched on
a connection that a scan has found silent for more than the timeout, unless the pass has still to
come to it. -/
theorem dispatch_registered_iff (timeoutSecs : ℕ) (as : List Action) :
    Along (step timeoutSecs) Registered init as ↔
    ∀ pre sid post s t, as = pre ++ .dispatch sid :: post →
      exec (step timeoutSecs) init pre = some s → s.step timeoutSecs (.dispatch sid) = some t →
      FoundSilent timeoutSecs sid pre → sid ∈ s.stale.map Prod.snd := by
  rw [along_iff_split]
  constructor
  · intro h pre sid post s t hsplit hs ht hfound
    obtain ⟨hinv, -, hmonitor⟩ := exec_found hs
    have hpassed : sid ∉ s.passed :=
      (registered_iff_notPassed hinv ht).1 (h pre _ post s t hsplit hs ht)
    obtain ⟨u, huser⟩ := exists_user_of_dispatch ht
    exact ((hmonitor.found sid u huser).1 hfound).resolve_left hpassed
  · intro h pre a post s t hsplit hs ht
    obtain ⟨hinv, hsingle, hmonitor⟩ := exec_found hs
    rw [registered_iff_notPassed hinv ht]
    cases a with
    | dispatch sid =>
      intro hpassed
      obtain ⟨u, huser⟩ := exists_user_of_dispatch ht
      exact hsingle.passed sid hpassed
        (h pre sid post s t hsplit hs ht ((hmonitor.found sid u huser).2 (.inl hpassed)))
    | connect | ready | text | ping | close | scan | reap | tick => trivial

/-- A client falls silent for 61 seconds, is reaped, and then acknowledges a message. -/
def silentClient : List Action :=
  [.connect ⟨1, 7⟩, .ready 1, .tick 61, .scan, .reap, .text 1 (some (.ackMessage 20 9))]

/-- **The reaped connection acts**: its session is gone, and its message is processed. -/
theorem reaped_acts :
    ∃ s s', exec (step 60) init silentClient = some s ∧ s.sessions.sessions = ∅ ∧
      s.step 60 (.dispatch 1) = some s' ∧ s'.dispatched = [(1, .ackMessage 20 9)] ∧
      ¬s.Registered (.dispatch 1) := by
  refine ⟨_, _, rfl, rfl, rfl, rfl, ?_⟩
  intro h
  exact absurd (h ⟨7, .received _⟩ rfl) List.not_mem_nil

end Serving

end RustRelay
