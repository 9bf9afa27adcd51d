import Mathlib.Data.List.Sort
import RustRelay.Gateway.Stream

/-!
# Guilds in READY

`db.rs` asks the tables about guilds, channels and members in several ways: for READY, for the
members a message goes to, for the users a presence update goes to, and for the REST list of
channels. The answers fit together.

**Theorem (`ready_guilds`).** If one of the queries for READY fails, it lists no guild. If none
does, it lists the guilds of the user, and among their channels exactly those, each once, whose
messages go to the user; the users whose presence the user is told of are the other members of these
guilds.
-/

namespace RustRelay

open Sql

/-! ## Tables and queries -/

/-- The tables with the columns that READY shows. -/
structure Directory extends Database where
  /-- `guilds`, with their names. -/
  guilds : Table GuildId String
  /-- The other columns of `channels`. -/
  channelName : ChannelId → String
  channelCreatedAt : ChannelId → Timestamp
  /-- `guild_members.guild_id REFERENCES guilds(id)`. -/
  members_guild : ∀ gm ∈ guildMembers, (guilds.lookup gm.1).isSome

/-- `get_channel_guild_id`. -/
def getChannelGuildId (db : Database) (channelId : ChannelId) : Option GuildId :=
  db.channels.lookup channelId

/-- `get_guild_member_ids`. -/
def getGuildMemberIds (db : Database) (guildId : GuildId) : List UserId :=
  (db.guildMembers.filter fun gm => gm.1 = guildId).map Prod.snd

/-- `get_user_guild_ids`. -/
def getUserGuildIds (db : Database) (userId : UserId) : List GuildId :=
  (db.guildMembers.filter fun gm => gm.2 = userId).map Prod.fst

namespace Directory

variable (d : Directory)

/-- The channels of a guild, in whatever order the table is scanned. -/
def guildChannels (guildId : GuildId) : List ChannelId :=
  (d.channels.entries.filter fun e => e.2 = guildId).map Sigma.fst

/-- `ORDER BY created_at`; rows with equal times come in any order. -/
def Sorts (sort : List ChannelId → List ChannelId) : Prop :=
  ∀ ids, (sort ids).Perm ids ∧
    (sort ids).Pairwise fun c c' => d.channelCreatedAt c ≤ d.channelCreatedAt c'

variable (sort : List ChannelId → List ChannelId)

/-- The query of `list_channels`, and of `get_user_guilds_info` for each guild. -/
def listChannels (guildId : GuildId) : List ChannelInfo :=
  (sort (d.guildChannels guildId)).map fun c => ⟨c, d.channelName c⟩

/-- The rows of the join of `guilds` and `guild_members`. -/
def userGuilds (userId : UserId) : List (GuildId × String) :=
  (getUserGuildIds d.toDatabase userId).filterMap fun g =>
    (d.guilds.lookup g).map fun name => (g, name)

/-- The loop of `get_user_guilds_info`: two queries for each guild, `n` the number of those before.
The database answers each of them or not. -/
def guildInfos (query : ℕ → Except DbError Unit) :
    ℕ → List (GuildId × String) → Except DbError (List GuildInfo)
  | _, [] => .ok []
  | n, (id, name) :: guilds => do
    query n
    query (n + 1)
    let infos ← guildInfos query (n + 2) guilds
    return ⟨id, name, d.listChannels sort id, (getGuildMemberIds d.toDatabase id).length⟩ :: infos

/-- `get_user_guilds_info`. -/
def getUserGuildsInfo (query : ℕ → Except DbError Unit) (userId : UserId) :
    Except DbError (List GuildInfo) := do
  query 0
  d.guildInfos sort query 1 (d.userGuilds userId)

end Directory

/-! ## How the queries fit together -/

section
variable {db : Database} {u v : UserId} {g : GuildId} {c : ChannelId}

theorem mem_getGuildMemberIds : v ∈ getGuildMemberIds db g ↔ (g, v) ∈ db.guildMembers := by
  simp [getGuildMemberIds]

theorem mem_getUserGuildIds : g ∈ getUserGuildIds db u ↔ (g, u) ∈ db.guildMembers := by
  simp [getUserGuildIds]

theorem getUserGuildIds_nodup (db : Database) (u : UserId) : (getUserGuildIds db u).Nodup := by
  refine (db.guildMembers_nodup.filter _).map_on fun a ha b hb hab => Prod.ext hab ?_
  simp only [List.mem_filter, decide_eq_true_eq] at ha hb
  exact ha.2.trans hb.2.symm

/-- A message goes to the members of the guild of its channel. -/
theorem getChannelMemberIds_eq (db : Database) (c : ChannelId) :
    getChannelMemberIds db c = (getChannelGuildId db c).elim [] (getGuildMemberIds db) := by
  unfold getChannelMemberIds getChannelGuildId
  cases db.channels.lookup c <;> rfl

theorem mem_getChannelMemberIds : v ∈ getChannelMemberIds db c ↔
    ∃ g, getChannelGuildId db c = some g ∧ (g, v) ∈ db.guildMembers := by
  rw [getChannelMemberIds_eq]
  cases getChannelGuildId db c with
  | none => simp
  | some g => simp [mem_getGuildMemberIds]

/-- A presence update goes to the other members of the guilds of its user. -/
theorem mem_getColocatedUserIds_iff : v ∈ getColocatedUserIds db u ↔
    v ≠ u ∧ ∃ g ∈ getUserGuildIds db u, v ∈ getGuildMemberIds db g := by
  simp only [mem_getColocatedUserIds, Database.SharesGuild, mem_getUserGuildIds,
    mem_getGuildMemberIds]

end

namespace Directory

variable {d : Directory} {sort : List ChannelId → List ChannelId} {query : ℕ → Except DbError Unit}
  {u : UserId} {c : ChannelId} {g : GuildId}

theorem mem_guildChannels : c ∈ d.guildChannels g ↔ getChannelGuildId d.toDatabase c = some g := by
  rw [getChannelGuildId, ← Option.mem_def, AList.lookup,
    List.mem_dlookup_iff d.channels.nodupKeys, guildChannels, List.mem_map]
  constructor
  · rintro ⟨e, he, rfl⟩
    obtain ⟨hmem, hg⟩ := List.mem_filter.1 he
    obtain rfl : e.2 = g := by simpa using hg
    exact hmem
  · intro hmem
    exact ⟨⟨c, g⟩, List.mem_filter.2 ⟨hmem, by simp⟩, rfl⟩

theorem guildChannels_nodup (d : Directory) (g : GuildId) : (d.guildChannels g).Nodup :=
  (List.nodupKeys_iff_pairwise.1 d.channels.nodupKeys |>.filter _).map _ fun _ _ h => h

/-- The guilds of the join are those of the user: the foreign key leaves none out. -/
theorem userGuilds_ids (d : Directory) (u : UserId) :
    (d.userGuilds u).map Prod.fst = getUserGuildIds d.toDatabase u := by
  have hguild : ∀ g ∈ getUserGuildIds d.toDatabase u, (d.guilds.lookup g).isSome := fun g hg =>
    d.members_guild (g, u) (mem_getUserGuildIds.1 hg)
  unfold userGuilds
  generalize getUserGuildIds d.toDatabase u = ids at hguild ⊢
  induction ids with
  | nil => rfl
  | cons g gs ih =>
    obtain ⟨hg, hgs⟩ := List.forall_mem_cons.1 hguild
    obtain ⟨name, hname⟩ := Option.isSome_iff_exists.1 hg
    rw [List.filterMap_cons, hname]
    exact congrArg (g :: ·) (ih hgs)

theorem mem_userGuilds {name : String} (h : (g, name) ∈ d.userGuilds u) :
    d.guilds.lookup g = some name := by
  obtain ⟨g', -, hg'⟩ := List.mem_filterMap.1 h
  obtain ⟨name', hname, heq⟩ := Option.map_eq_some_iff.1 hg'
  obtain ⟨rfl, rfl⟩ := Prod.mk.inj heq
  exact hname

/-- What is listed for a guild. -/
def guildInfo (d : Directory) (sort : List ChannelId → List ChannelId) (guild : GuildId × String) :
    GuildInfo :=
  ⟨guild.1, guild.2, d.listChannels sort guild.1, (getGuildMemberIds d.toDatabase guild.1).length⟩

theorem guildInfos_ok {n : ℕ} {guilds : List (GuildId × String)}
    (h : ∀ i, n ≤ i → i < n + 2 * guilds.length → query i = .ok ()) :
    d.guildInfos sort query n guilds = .ok (guilds.map (d.guildInfo sort)) := by
  induction guilds generalizing n with
  | nil => rfl
  | cons guild guilds ih =>
    obtain ⟨id, name⟩ := guild
    rw [List.length_cons] at h
    have hrest := ih (n := n + 2) fun i hi hlt => h i (by omega) (by omega)
    rw [guildInfos, h n le_rfl (by omega), h (n + 1) (by omega) (by omega), hrest]
    rfl

theorem guildInfos_error {n : ℕ} {guilds : List (GuildId × String)}
    (h : ∃ i, n ≤ i ∧ i < n + 2 * guilds.length ∧ ∃ e, query i = .error e) :
    ∃ e, d.guildInfos sort query n guilds = .error e := by
  induction guilds generalizing n with
  | nil =>
    obtain ⟨i, hle, hlt, -⟩ := h
    simp only [List.length_nil] at hlt
    omega
  | cons guild guilds ih =>
    obtain ⟨id, name⟩ := guild
    rw [guildInfos]
    cases hchannels : query n with
    | error e => exact ⟨e, rfl⟩
    | ok _ =>
      cases hcount : query (n + 1) with
      | error e => exact ⟨e, rfl⟩
      | ok _ =>
        obtain ⟨i, hle, hlt, e, he⟩ := h
        -- the query that failed is none of the two
        have hne : i ≠ n := by
          rintro rfl
          rw [hchannels] at he
          cases he
        have hne' : i ≠ n + 1 := by
          rintro rfl
          rw [hcount] at he
          cases he
        rw [List.length_cons] at hlt
        obtain ⟨e', he'⟩ := ih (n := n + 2) ⟨i, by omega, by omega, e, he⟩
        exact ⟨e', by rw [he']; rfl⟩

/-- What READY lists fits the members that messages and presence updates go to. -/
structure Lists (d : Directory) (sort : List ChannelId → List ChannelId) (u : UserId)
    (infos : List GuildInfo) : Prop where
  ids : infos.map GuildInfo.id = getUserGuildIds d.toDatabase u
  nodup : (infos.map GuildInfo.id).Nodup
  guild : ∀ info ∈ infos, d.guilds.lookup info.id = some info.name ∧
    info.channels = d.listChannels sort info.id ∧
    info.memberCount = (getGuildMemberIds d.toDatabase info.id).length ∧
    u ∈ getGuildMemberIds d.toDatabase info.id
  channels : ∀ c, ((infos.flatMap GuildInfo.channels).map ChannelInfo.id).count c =
    if u ∈ getChannelMemberIds d.toDatabase c then 1 else 0
  told : ∀ v, u ∈ getColocatedUserIds d.toDatabase v ↔
    u ≠ v ∧ ∃ info ∈ infos, v ∈ getGuildMemberIds d.toDatabase info.id

/-- The channels that are listed are those whose messages go to the user, each once. -/
theorem listed_count (hsort : d.Sorts sort) (u : UserId) (c : ChannelId) :
    ((((d.userGuilds u).map (d.guildInfo sort)).flatMap GuildInfo.channels).map
      ChannelInfo.id).count c = if u ∈ getChannelMemberIds d.toDatabase c then 1 else 0 := by
  have hlist : (((d.userGuilds u).map (d.guildInfo sort)).flatMap GuildInfo.channels).map
      ChannelInfo.id =
      (getUserGuildIds d.toDatabase u).flatMap fun g => sort (d.guildChannels g) := by
    rw [← userGuilds_ids, List.map_flatMap, List.flatMap_map, List.flatMap_map]
    refine List.flatMap_congr fun guild _ => ?_
    simp [guildInfo, listChannels, Function.comp_def]
  have hmem (g : GuildId) : c ∈ sort (d.guildChannels g) ↔
      getChannelGuildId d.toDatabase c = some g :=
    (hsort _).1.mem_iff.trans mem_guildChannels
  have hnodup : ((getUserGuildIds d.toDatabase u).flatMap fun g =>
      sort (d.guildChannels g)).Nodup := by
    refine List.nodup_flatMap.2 ⟨fun g _ => (hsort _).1.nodup_iff.2 (guildChannels_nodup d g), ?_⟩
    refine (getUserGuildIds_nodup d.toDatabase u).imp fun {g g'} hne => ?_
    intro c hc hc'
    have hg := mem_guildChannels.1 ((hsort _).1.mem_iff.1 hc)
    have hg' := mem_guildChannels.1 ((hsort _).1.mem_iff.1 hc')
    exact hne (Option.some.inj (hg.symm.trans hg'))
  rw [hlist, hnodup.count]
  refine if_congr ?_ rfl rfl
  rw [List.mem_flatMap, mem_getChannelMemberIds]
  constructor
  · rintro ⟨g, hg, hc⟩
    exact ⟨g, (hmem g).1 hc, mem_getUserGuildIds.1 hg⟩
  · rintro ⟨g, hc, hg⟩
    exact ⟨g, mem_getUserGuildIds.2 hg, (hmem g).2 hc⟩

theorem lists_userGuilds (hsort : d.Sorts sort) (u : UserId) :
    d.Lists sort u ((d.userGuilds u).map (d.guildInfo sort)) := by
  have hids : ((d.userGuilds u).map (d.guildInfo sort)).map GuildInfo.id =
      getUserGuildIds d.toDatabase u := by
    rw [← userGuilds_ids, List.map_map]
    rfl
  refine ⟨hids, hids ▸ getUserGuildIds_nodup _ u, ?_, listed_count hsort u, ?_⟩
  · intro info hinfo
    obtain ⟨guild, hguild, rfl⟩ := List.mem_map.1 hinfo
    have hid : guild.1 ∈ getUserGuildIds d.toDatabase u := by
      rw [← userGuilds_ids]
      exact List.mem_map_of_mem hguild
    exact ⟨mem_userGuilds hguild, rfl, rfl,
      mem_getGuildMemberIds.2 (mem_getUserGuildIds.1 hid)⟩
  · intro v
    have hshared : (∃ g ∈ getUserGuildIds d.toDatabase v, u ∈ getGuildMemberIds d.toDatabase g) ↔
        ∃ g ∈ getUserGuildIds d.toDatabase u, v ∈ getGuildMemberIds d.toDatabase g := by
      simp only [mem_getUserGuildIds, mem_getGuildMemberIds]
      exact exists_congr fun g => and_comm
    rw [mem_getColocatedUserIds_iff, hshared, ← hids]
    simp only [List.mem_map, exists_exists_and_eq_and]

/-- The queries of `get_user_guilds_info`: one for the guilds, and two for each of them. -/
def guildQueries (d : Directory) (u : UserId) : ℕ :=
  2 * (getUserGuildIds d.toDatabase u).length + 1

/-- **What READY says of guilds**: nothing if a query fails, and all of it if none does. -/
theorem ready_guilds (d : Directory) (sort : List ChannelId → List ChannelId)
    (hsort : d.Sorts sort) (query : ℕ → Except DbError Unit)
    (readStates : Except DbError (List ReadState)) (heartbeatIntervalMs : UInt64) (u : UserId)
    (username : String) (sessionId : SessionId) :
    ∃ infos, buildReadyPayload ⟨d.getUserGuildsInfo sort query u, readStates, heartbeatIntervalMs⟩
        u username sessionId =
        .ready sessionId ⟨u, username⟩ infos (readStates.toOption.getD []) heartbeatIntervalMs ∧
      ((∃ i < d.guildQueries u, ∃ e, query i = .error e) → infos = []) ∧
      ((∀ i < d.guildQueries u, query i = .ok ()) → d.Lists sort u infos) := by
  have hlength : d.guildQueries u = 1 + 2 * (d.userGuilds u).length := by
    rw [guildQueries, ← userGuilds_ids, List.length_map, Nat.add_comm]
  refine ⟨_, rfl, fun hfails => ?_, fun hanswers => ?_⟩
  · obtain ⟨e', he'⟩ : ∃ e, d.getUserGuildsInfo sort query u = .error e := by
      rw [getUserGuildsInfo]
      cases hquery : query 0 with
      | error e => exact ⟨e, rfl⟩
      | ok _ =>
        obtain ⟨i, hi, e, he⟩ := hfails
        refine guildInfos_error ⟨i, Nat.one_le_iff_ne_zero.2 ?_, hlength ▸ hi, e, he⟩
        rintro rfl
        rw [hquery] at he
        cases he
    dsimp only
    rw [he']
    rfl
  · have hinfos : d.getUserGuildsInfo sort query u =
        .ok ((d.userGuilds u).map (d.guildInfo sort)) := by
      rw [getUserGuildsInfo, hanswers 0 (Nat.succ_pos _)]
      exact guildInfos_ok fun i _ hi => hanswers i (hlength ▸ hi)
    dsimp only
    rw [hinfos]
    exact lists_userGuilds hsort u

/-- The stable sort is an order that the database may choose. -/
theorem sorts_mergeSort (d : Directory) : d.Sorts fun ids =>
    ids.mergeSort fun c c' => decide (d.channelCreatedAt c ≤ d.channelCreatedAt c') := by
  intro ids
  have hsorted : (ids.mergeSort fun c c' =>
      decide (d.channelCreatedAt c ≤ d.channelCreatedAt c')).Pairwise fun c c' =>
      decide (d.channelCreatedAt c ≤ d.channelCreatedAt c') = true := by
    refine List.pairwise_mergeSort (fun a b c hab hbc => ?_) (fun a b => ?_) ids
    · rw [decide_eq_true_eq] at hab hbc ⊢
      exact hab.trans hbc
    · simpa using le_total (d.channelCreatedAt a) (d.channelCreatedAt b)
  exact ⟨List.mergeSort_perm _ _, hsorted.imp of_decide_eq_true⟩

theorem two_members_nodup : ([(10, 1), (10, 2)] : List (GuildId × UserId)).Nodup := by decide

/-- Guild 10 has two channels, of which the second is older. -/
def oneGuild : Directory where
  users := [1, 2]
  channels := AList.insert 21 10 (AList.insert 20 10 ∅)
  guildMembers := [(10, 1), (10, 2)]
  guildMembers_nodup := two_members_nodup
  messages := ∅
  readStates := ∅
  guilds := AList.insert 10 "RustRelay Dev" ∅
  channelName c := if c = 20 then "random" else "general"
  channelCreatedAt c := if c = 20 then 5 else 3
  members_guild := List.forall_mem_cons.2 ⟨rfl, List.forall_mem_singleton.2 rfl⟩

theorem ready_guilds_oneGuild :
    ∃ infos, buildReadyPayload
      ⟨oneGuild.getUserGuildsInfo (fun ids => ids.mergeSort fun c c' =>
        decide (oneGuild.channelCreatedAt c ≤ oneGuild.channelCreatedAt c')) (fun _ => .ok ()) 1,
        .ok [], 30000⟩ 1 "alice" 7 = .ready 7 ⟨1, "alice"⟩ infos [] 30000 ∧
      oneGuild.Lists (fun ids => ids.mergeSort fun c c' =>
        decide (oneGuild.channelCreatedAt c ≤ oneGuild.channelCreatedAt c')) 1 infos := by
  obtain ⟨infos, hready, -, hlists⟩ := ready_guilds oneGuild _ (sorts_mergeSort oneGuild)
    (fun _ => .ok ()) (.ok []) 30000 1 "alice" 7
  exact ⟨infos, hready, hlists fun _ _ => rfl⟩

end Directory

end RustRelay
