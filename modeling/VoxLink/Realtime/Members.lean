import VoxLink.Realtime.Sockets

/-! Whether the sets of members in Redis agree with the rooms of the sockets, under every
interleaving of the handlers. A set has one entry for each user, a room one for each socket. -/

namespace VoxLink

open ProofKit Prog WebsocketService

/-! ### Sets of members -/

/-- The set of members under a key. -/
def membersAt (now : Date) (redis : Redis) (key : String) : List String :=
  match redis.get now key with
  | some (.members ids) => ids
  | _ => []

/-- What is under the keys of members are sets that do not expire. -/
def HoldsSets (redis : Redis) : Prop :=
  ∀ e ∈ redis, isMembersKey e.1 = true → e.2.deadline = none ∧ ∃ ids, e.2.value = .members ids

variable {redis redis' : Redis} {env : Env} {now now' : Date} {key key' id id' : String}

theorem HoldsSets.get_eq (h : HoldsSets redis) (hkey : isMembersKey key = true) (now now' : Date) :
    redis.get now key = redis.get now' key := by
  unfold Keyspace.get Keyspace.entry
  congr 2
  apply List.find?_congr
  intro e he
  by_cases heq : e.1 = key
  · have hlive := (h e he (heq ▸ hkey)).1
    simp [Entry.live, hlive]
  · simp [heq]

theorem HoldsSets.get_members (h : HoldsSets redis) (hkey : isMembersKey key = true)
    {v : RedisValue}
    (hv : redis.get now key = some v) : ∃ ids, v = .members ids := by
  obtain ⟨entry, hentry, rfl⟩ := Option.map_eq_some_iff.mp hv
  obtain ⟨e, he, rfl⟩ := Option.map_eq_some_iff.mp hentry
  have hfound : e.1 = key ∧ e.2.live now = true := by simpa using List.find?_some he
  exact (h e (List.mem_of_find?_eq_some he) (hfound.1 ▸ hkey)).2

theorem HoldsSets.del (h : HoldsSets redis) (key : String) : HoldsSets (redis.del key) :=
  fun e he => h e (List.mem_filter.mp he).1

theorem HoldsSets.put (h : HoldsSets redis) (key : String) (ids : List String) :
    HoldsSets (redis.put key (.members ids) none) := by
  intro e he hkey
  rcases List.mem_cons.mp he with rfl | hold
  · exact ⟨rfl, ids, rfl⟩
  · exact h.del key e hold hkey

theorem membersAt_put {ids : List String} : membersAt now (redis.put key (.members ids) none) key' =
    if key' = key then ids else membersAt now redis key' := by
  unfold membersAt
  split_ifs with heq
  · rw [heq, Keyspace.get_put]
  · rw [Keyspace.get_put_of_ne heq]

theorem membersAt_del : membersAt now (redis.del key) key' =
    if key' = key then [] else membersAt now redis key' := by
  unfold membersAt
  split_ifs with heq
  · rw [heq, Keyspace.get_del]
  · rw [Keyspace.get_del_of_ne heq]

theorem membersAt_of_get {ids : List String} (h : redis.get now key = some (.members ids)) :
    membersAt now redis key = ids := by
  rw [membersAt, h]

theorem membersAt_none (h : redis.get now key = none) : membersAt now redis key = [] := by
  rw [membersAt, h]

theorem HoldsSets.membersAt_eq (h : HoldsSets redis) (hkey : isMembersKey key = true)
    (now now' : Date) :
    membersAt now redis key = membersAt now' redis key := by
  unfold membersAt
  rw [h.get_eq hkey now now']

theorem append_members_inj {room room' : String} (h : room ++ ":members" = room' ++ ":members") :
    room = room' := by
  have hlist := congrArg String.toList h
  rw [String.toList_append, String.toList_append] at hlist
  exact String.toList_injective (List.append_cancel_right hlist)

theorem membersKey_injective : Function.Injective membersKey := by
  intro c c' h
  have hlist := congrArg String.toList (append_members_inj h)
  rw [String.toList_append, String.toList_append] at hlist
  exact String.toList_injective (List.append_cancel_left hlist)

theorem isMembersKey_membersKey (c : String) : isMembersKey (membersKey c) = true := by
  simp only [isMembersKey, membersKey, Bool.and_eq_true]
  refine ⟨⟨?_, ?_⟩, ?_⟩
  · rw [List.isPrefixOf_iff_prefix, String.toList_append, String.toList_append,
      List.append_assoc]
    exact List.prefix_append _ _
  · rw [List.isSuffixOf_iff_suffix, String.toList_append]
    exact List.suffix_append _ _
  · have hlength : ("channel:" ++ c ++ ":members").length = 8 + c.length + 8 := by
      rw [String.length_append, String.length_append]
      rfl
    exact decide_eq_true (by omega)

theorem mem_keys_of_mem (h : HoldsSets redis) {c : String} (now' : Date)
    (hmem : id ∈ membersAt now redis (membersKey c)) :
    membersKey c ∈ (redis.keys now').filter isMembersKey := by
  have hkey := isMembersKey_membersKey c
  apply List.mem_filter.mpr ⟨_, hkey⟩
  rw [h.membersAt_eq hkey now now', membersAt] at hmem
  cases hget : redis.get now' (membersKey c) with
  | none =>
    rw [hget] at hmem
    exact nomatch hmem
  | some v => exact Keyspace.mem_keys hget

theorem holdsSets_of_none (h : ∀ e ∈ redis, isMembersKey e.1 = false) : HoldsSets redis := by
  intro e he hkey
  rw [h e he] at hkey
  exact nomatch hkey

theorem membersAt_of_none (h : ∀ e ∈ redis, isMembersKey e.1 = false) {c : String} :
    membersAt now redis (membersKey c) = [] := by
  apply List.eq_nil_iff_forall_not_mem.mpr
  intro id hmem
  have hkey := List.mem_filter.mp (mem_keys_of_mem (holdsSets_of_none h) now hmem)
  obtain ⟨e, he, heq⟩ := List.mem_map.mp hkey.1
  have hnot := h e (List.mem_filter.mp he).1
  rw [heq, hkey.2] at hnot
  exact nomatch hnot

/-- A set with one more element. -/
def withMember (id : String) (ids : List String) : List String :=
  if id ∈ ids then ids else ids ++ [id]

theorem mem_withMember {ids : List String} : id' ∈ withMember id ids ↔ id' ∈ ids ∨ id' = id := by
  unfold withMember
  split_ifs with hmem
  · constructor
    · exact .inl
    · rintro (hold | rfl)
      · exact hold
      · exact hmem
  · simp

/-- `SADD` on a set or on no key. -/
theorem sadd_membersAt (env : Env) (id : String) (h : HoldsSets redis)
    (hkey : isMembersKey key = true) :
    ∃ redis', sadd env key id redis = some redis' ∧ HoldsSets redis' ∧
      ∀ now key', membersAt now redis' key' =
        if key' = key then withMember id (membersAt now redis key) else
          membersAt now redis key' := by
  unfold sadd
  cases hget : redis.get env.now key with
  | none =>
    refine ⟨_, rfl, h.put key [id], fun now key' => ?_⟩
    have hempty := membersAt_none ((h.get_eq hkey env.now now).symm.trans hget)
    rw [membersAt_put, hempty]
    rfl
  | some v =>
    obtain ⟨ids, rfl⟩ := h.get_members hkey hget
    have hids : ∀ now, membersAt now redis key = ids := fun now =>
      membersAt_of_get ((h.get_eq hkey env.now now).symm.trans hget)
    by_cases hmem : id ∈ ids
    · refine ⟨redis, by simp [hmem], h, fun now key' => ?_⟩
      split_ifs with heq
      · rw [heq, hids, withMember, if_pos hmem]
      · rfl
    · refine ⟨_, by simp only [hmem, if_false], h.put key (ids ++ [id]), fun now key' => ?_⟩
      rw [membersAt_put, hids, withMember, if_neg hmem]

theorem sadd_members (env : Env) (id : String) (h : HoldsSets redis)
    (hkey : isMembersKey key = true) :
    ∃ redis', sadd env key id redis = some redis' ∧ HoldsSets redis' ∧
      ∀ now key' id', id' ∈ membersAt now redis' key' ↔
        id' ∈ membersAt now redis key' ∨ key' = key ∧ id' = id := by
  obtain ⟨redis', hsadd, hholds, hmembers⟩ := sadd_membersAt env id h hkey
  refine ⟨redis', hsadd, hholds, fun now key' id' => ?_⟩
  rw [hmembers]
  split_ifs with heq
  · rw [mem_withMember, heq]
    simp
  · simp [heq]

/-- `SREM` on a set or on no key. -/
theorem srem_membersAt (env : Env) (id : String) (h : HoldsSets redis)
    (hkey : isMembersKey key = true) :
    ∃ redis', srem env key id redis = some redis' ∧ HoldsSets redis' ∧
      ∀ now key', membersAt now redis' key' =
        if key' = key then (membersAt now redis key).filter (· ≠ id)
        else membersAt now redis key' := by
  unfold srem
  cases hget : redis.get env.now key with
  | none =>
    refine ⟨redis, rfl, h, fun now key' => ?_⟩
    have hempty := membersAt_none ((h.get_eq hkey env.now now).symm.trans hget)
    split_ifs with heq
    · rw [heq, hempty]
      rfl
    · rfl
  | some v =>
    obtain ⟨ids, rfl⟩ := h.get_members hkey hget
    have hids : ∀ now, membersAt now redis key = ids := fun now =>
      membersAt_of_get ((h.get_eq hkey env.now now).symm.trans hget)
    dsimp only
    split_ifs with hnone
    · refine ⟨_, rfl, h.del key, fun now key' => ?_⟩
      rw [membersAt_del, hids, hnone]
    · refine ⟨_, rfl, h.put key _, fun now key' => ?_⟩
      rw [membersAt_put, hids]

theorem srem_members (env : Env) (id : String) (h : HoldsSets redis)
    (hkey : isMembersKey key = true) :
    ∃ redis', srem env key id redis = some redis' ∧ HoldsSets redis' ∧
      ∀ now key' id', id' ∈ membersAt now redis' key' ↔
        id' ∈ membersAt now redis key' ∧ ¬(key' = key ∧ id' = id) := by
  obtain ⟨redis', hsrem, hholds, hmembers⟩ := srem_membersAt env id h hkey
  refine ⟨redis', hsrem, hholds, fun now key' id' => ?_⟩
  rw [hmembers]
  split_ifs with heq
  · simp [heq]
  · simp [heq]

/-! ### Sets and rooms -/

/-- A connected socket of the user is in the room whose set is under the key. -/
def Gateway.hasInside (g : Gateway) (id key : String) : Bool :=
  g.sockets.any fun s => s.user.any (·.id.toText = id) && s.rooms.any (· ++ ":members" = key)

theorem mem_enter {room room' : String} {s : Socket} :
    room' ∈ (s.enter room).rooms ↔ room' = room ∨ room' ∈ s.rooms := by
  by_cases heq : room' = room <;> simp [Socket.enter, heq]

theorem mem_exit {room room' : String} {s : Socket} :
    room' ∈ (s.exit room).rooms ↔ room' ∈ s.rooms ∧ room' ≠ room := by
  simp [Socket.exit]

namespace Task

variable {t : Task} {phase phase' : Phase} {p : Pool (Task × Phase) Gateway} {k : Nat}
  {g g' : Gateway} {c : String}

theorem hasInside_iff : g.hasInside id (membersKey c) = true ↔
    ∃ s ∈ g.sockets, (∃ user, s.user = some user ∧ user.id.toText = id) ∧
      channelRoom c ∈ s.rooms := by
  have hroom : ∀ room : String, room ++ ":members" = membersKey c ↔ room = channelRoom c :=
    fun room => ⟨append_members_inj, fun h => h ▸ rfl⟩
  simp [Gateway.hasInside, hroom, Option.any_eq_true]

/-- A removal of the user from the set under the key is still to come. -/
def dropsLater (p : Pool (Task × Phase) Gateway) (id key : String) : Bool :=
  p.jobs.any (·.2.drops id key)

/-- An addition of the user to the set under the key is still to come. -/
def addsLater (p : Pool (Task × Phase) Gateway) (id key : String) : Bool :=
  p.jobs.any (·.2.adds id key)

/-- The turn adds a user to a set who has no socket in the room and whom no handler is to remove
again, or removes one who has such a socket and whom no handler is to add again. -/
def strays (p : Pool (Task × Phase) Gateway) (k : Nat) : Bool :=
  match p.jobs[k]? with
  | some (_, .addMember c user) =>
    !p.state.hasInside user.id.toText (membersKey c.text) &&
      !dropsLater p user.id.toText (membersKey c.text)
  | some (_, .dropMember c user) =>
    p.state.hasInside user.id.toText (membersKey c) && !addsLater p user.id.toText (membersKey c)
  | some (_, .forget user _ (key :: _)) =>
    p.state.hasInside user.id.toText key && !addsLater p user.id.toText key
  | _ => false

/-- Sets and rooms agree but for what the handlers are still to do. -/
structure Agree (p : Pool (Task × Phase) Gateway) : Prop where
  sets : HoldsSets p.state.server.redis
  members : ∀ now id c, id ∈ membersAt now p.state.server.redis (membersKey c) →
    p.state.hasInside id (membersKey c) = true ∨ dropsLater p id (membersKey c) = true
  insiders : ∀ now id c, p.state.hasInside id (membersKey c) = true →
    id ∈ membersAt now p.state.server.redis (membersKey c) ∨ addsLater p id (membersKey c) = true

/-- What a turn must do to sockets and sets so that they go on to agree. -/
theorem Agree.next (h : Agree p) (hk : p.jobs[k]? = some (t, phase))
    (hsets : HoldsSets g'.server.redis)
    (hjoined : ∀ now id c, id ∈ membersAt now g'.server.redis (membersKey c) →
      id ∉ membersAt now p.state.server.redis (membersKey c) →
      g'.hasInside id (membersKey c) = true ∨
        (p.others k).any (·.2.drops id (membersKey c)) = true)
    (hleft : ∀ id c, p.state.hasInside id (membersKey c) = true →
      g'.hasInside id (membersKey c) = true ∨ phase'.drops id (membersKey c) = true)
    (hdrops : ∀ now id c, id ∈ membersAt now g'.server.redis (membersKey c) →
      phase.drops id (membersKey c) = true → phase'.drops id (membersKey c) = true)
    (hentered : ∀ id c, g'.hasInside id (membersKey c) = true →
      p.state.hasInside id (membersKey c) = true ∨ phase'.adds id (membersKey c) = true)
    (hremoved : ∀ now id c, id ∈ membersAt now p.state.server.redis (membersKey c) →
      g'.hasInside id (membersKey c) = true → id ∈ membersAt now g'.server.redis (membersKey c) ∨
        (p.others k).any (·.2.adds id (membersKey c)) = true)
    (hadds : ∀ now id c, phase.adds id (membersKey c) = true →
      id ∈ membersAt now g'.server.redis (membersKey c)) :
    Agree ⟨p.jobs.set k (t, phase'), g'⟩ := by
  constructor
  · exact hsets
  · intro now id c hmem
    show g'.hasInside id (membersKey c) = true ∨ (p.jobs.set k (t, phase')).any _ = true
    rw [set_any _ _ hk, Bool.or_eq_true]
    by_cases hold : id ∈ membersAt now p.state.server.redis (membersKey c)
    · rcases h.members now id c hold with hin | hdrop
      · rcases hleft id c hin with hin' | hdrop'
        · exact .inl hin'
        · exact .inr (.inl hdrop')
      · rw [dropsLater, jobs_any _ hk, Bool.or_eq_true] at hdrop
        rcases hdrop with hself | hothers
        · exact .inr (.inl (hdrops now id c hmem hself))
        · exact .inr (.inr hothers)
    · rcases hjoined now id c hmem hold with hin | hothers
      · exact .inl hin
      · exact .inr (.inr hothers)
  · intro now id c hin
    show id ∈ membersAt now g'.server.redis (membersKey c) ∨
      (p.jobs.set k (t, phase')).any _ = true
    rw [set_any _ _ hk, Bool.or_eq_true]
    rcases hentered id c hin with hin' | hadd
    · rcases h.insiders now id c hin' with hmem | hadd
      · rcases hremoved now id c hmem hin with hmem' | hothers
        · exact .inl hmem'
        · exact .inr (.inr hothers)
      · rw [addsLater, jobs_any _ hk, Bool.or_eq_true] at hadd
        rcases hadd with hself | hothers
        · exact .inl (hadds now id c hself)
        · exact .inr (.inr hothers)
    · exact .inr (.inl hadd)

/-- A turn that leaves the sets alone. -/
theorem Agree.sameSets (h : Agree p) (hk : p.jobs[k]? = some (t, phase))
    (hredis : g'.server.redis = p.state.server.redis)
    (hleft : ∀ id c, p.state.hasInside id (membersKey c) = true →
      g'.hasInside id (membersKey c) = true ∨ phase'.drops id (membersKey c) = true)
    (hentered : ∀ id c, g'.hasInside id (membersKey c) = true →
      p.state.hasInside id (membersKey c) = true ∨ phase'.adds id (membersKey c) = true)
    (hdrops : ∀ id key, phase.drops id key = true → phase'.drops id key = true)
    (hadds : ∀ id key, phase.adds id key = false) : Agree ⟨p.jobs.set k (t, phase'), g'⟩ := by
  apply h.next hk _ _ hleft _ hentered _ _
  · rw [hredis]
    exact h.sets
  · intro now id c hmem hnot
    rw [hredis] at hmem
    exact absurd hmem hnot
  · exact fun now id c _ hdrop => hdrops id _ hdrop
  · intro now id c hmem _
    rw [hredis]
    exact .inl hmem
  · intro now id c hadd
    rw [hadds] at hadd
    exact nomatch hadd

theorem hasInside_same (h : g'.sockets = g.sockets) (id key : String) :
    g'.hasInside id key = g.hasInside id key := by
  rw [Gateway.hasInside, h, Gateway.hasInside]

theorem Agree.still (h : Agree p) (hk : p.jobs[k]? = some (t, phase))
    (hredis : g'.server.redis = p.state.server.redis) (hsockets : g'.sockets = p.state.sockets)
    (hdrops : ∀ id key, phase.drops id key = true → phase'.drops id key = true)
    (hadds : ∀ id key, phase.adds id key = false) : Agree ⟨p.jobs.set k (t, phase'), g'⟩ := by
  have hsame := hasInside_same hsockets
  exact h.sameSets hk hredis (fun id c hin => .inl (hsame _ _ ▸ hin))
    (fun id c hin => .inl (hsame _ _ ▸ hin)) hdrops hadds

/-- When a socket is gone: its user is to be removed, or it was in no channel. -/
theorem left_remove {client : String}
    (h : g'.sockets = Rows.remove (fun s : Socket => decide (s.id = client)) g.sockets)
    (hgone : ∀ s ∈ g.sockets, s.id = client → ∀ user, s.user = some user →
      ∀ c, channelRoom c ∈ s.rooms → phase'.drops user.id.toText (membersKey c) = true)
    (id c : String) (hin : g.hasInside id (membersKey c) = true) :
    g'.hasInside id (membersKey c) = true ∨ phase'.drops id (membersKey c) = true := by
  obtain ⟨s, hs, ⟨user, huser, rfl⟩, hroom⟩ := hasInside_iff.mp hin
  by_cases hid : s.id = client
  · exact .inr (hgone s hs hid user huser c hroom)
  · left
    rw [hasInside_iff, h]
    exact ⟨s, Rows.mem_remove.mpr ⟨hs, decide_eq_false hid⟩, ⟨user, huser, rfl⟩, hroom⟩

theorem entered_remove {client : String}
    (h : g'.sockets = Rows.remove (fun s : Socket => decide (s.id = client)) g.sockets)
    (id c : String) (hin : g'.hasInside id (membersKey c) = true) :
    g.hasInside id (membersKey c) = true := by
  obtain ⟨s, hs, huser, hroom⟩ := hasInside_iff.mp hin
  rw [h] at hs
  exact hasInside_iff.mpr ⟨s, (Rows.mem_remove.mp hs).1, huser, hroom⟩

/-- The end of a socket without an account. -/
theorem Agree.guestGone {client : String} (h : Agree p) (hk : p.jobs[k]? = some (t, phase))
    (hredis : g'.server.redis = p.state.server.redis)
    (hsockets : g'.sockets =
      Rows.remove (fun s : Socket => decide (s.id = client)) p.state.sockets)
    (hguest : ∀ s ∈ p.state.sockets, s.id = client → s.user = none)
    (hdrops : ∀ id key, phase.drops id key = true → phase'.drops id key = true)
    (hadds : ∀ id key, phase.adds id key = false) : Agree ⟨p.jobs.set k (t, phase'), g'⟩ := by
  apply h.sameSets hk hredis (left_remove hsockets _) _ hdrops hadds
  · intro s hs hid user huser
    exact nomatch (hguest s hs hid).symm.trans huser
  · exact fun id c hin => .inl (entered_remove hsockets id c hin)

theorem account_guest {client : String} (hnodup : (g.sockets.map (·.id)).Nodup)
    (h : WebsocketGateway.account client g = none) {s : Socket} (hs : s ∈ g.sockets)
    (hid : s.id = client) : s.user = none := by
  cases hfind : g.sockets.find? (·.id = client) with
  | none => exact absurd hid (by simpa using List.find?_eq_none.mp hfind s hs)
  | some s' =>
    have hid' : s'.id = client := by simpa using List.find?_some hfind
    rw [Rows.eq_of_nodup hnodup hs (List.mem_of_find?_eq_some hfind) (hid.trans hid'.symm)]
    rwa [WebsocketGateway.account, hfind] at h

/-- A new socket is in no room. -/
theorem opens_agree {sub : Uuid} (h : Agree p) (hk : p.jobs[k]? = some (t, .idle))
    (hafter : After (p.state.sockets ++ [⟨t.client, none, []⟩]) p.state.server.redis
      p.state.server.db.users g') : Agree ⟨p.jobs.set k (t, .account sub), g'⟩ := by
  have hsame : ∀ id key, g'.hasInside id key = p.state.hasInside id key := by
    intro id key
    simp [Gateway.hasInside, hafter.sockets]
  exact h.sameSets hk hafter.redis (fun id c hin => .inl (hsame _ _ ▸ hin))
    (fun id c hin => .inl (hsame _ _ ▸ hin)) nofun fun _ _ => rfl

/-- A socket that gets its account is in no channel yet. -/
theorem attaches_agree {user : Profile} (horderly : Orderly p) (h : Agree p)
    (hk : p.jobs[k]? = some (t, .account user.id))
    (hafter : After (Rows.modify (·.id = t.client) (Socket.attach user) p.state.sockets)
      p.state.server.redis p.state.server.db.users g') :
    Agree ⟨p.jobs.set k (t, .online user), g'⟩ := by
  have hguest := (horderly.fits _ (List.mem_of_getElem? hk)).attaching rfl
  apply h.sameSets hk hafter.redis _ _ nofun fun _ _ => rfl
  · intro id c hin
    obtain ⟨s, hs, ⟨u, hu, hid⟩, hroom⟩ := hasInside_iff.mp hin
    have hne : s.id ≠ t.client := fun hclient => nomatch (hguest s hs hclient).symm.trans hu
    left
    rw [hasInside_iff, hafter.sockets]
    exact ⟨s, Rows.mem_modify.mpr ⟨s, hs, by simp [hne]⟩, ⟨u, hu, hid⟩, hroom⟩
  · intro id c hin
    obtain ⟨s', hs', huser, hroom⟩ := hasInside_iff.mp hin
    rw [hafter.sockets] at hs'
    obtain ⟨s, hs, rfl⟩ := Rows.mem_modify.mp hs'
    left
    split_ifs at huser hroom with hclient
    · have hnone := hguest s hs (of_decide_eq_true hclient)
      exact absurd hroom (horderly.guests s hs hnone c)
    · exact hasInside_iff.mpr ⟨s, hs, huser, hroom⟩

theorem aside_hasInside {client : String} {f : Socket → Socket} (hf : Aside f)
    (h : g'.sockets = Rows.modify (fun s : Socket => decide (s.id = client)) f g.sockets)
    (id c : String) : g'.hasInside id (membersKey c) = g.hasInside id (membersKey c) := by
  rw [Bool.eq_iff_iff, hasInside_iff, hasInside_iff, h]
  constructor
  · rintro ⟨s', hs', ⟨user, huser, hid⟩, hroom⟩
    obtain ⟨s, hs, rfl⟩ := Rows.mem_modify.mp hs'
    split_ifs at huser hroom
    · exact ⟨s, hs, ⟨user, hf.user s ▸ huser, hid⟩, (hf.rooms s c).mp hroom⟩
    · exact ⟨s, hs, ⟨user, huser, hid⟩, hroom⟩
  · rintro ⟨s, hs, ⟨user, huser, hid⟩, hroom⟩
    refine ⟨_, Rows.mem_modify.mpr ⟨s, hs, rfl⟩, ?_⟩
    split_ifs
    · exact ⟨⟨user, (hf.user s).trans huser, hid⟩, (hf.rooms s c).mpr hroom⟩
    · exact ⟨⟨user, huser, hid⟩, hroom⟩

/-- Sockets that enter the room of `c` have the account that is to be added to its set. -/
theorem enters_agree {user : Profile} {c : BodyField String} (horderly : Orderly p) (h : Agree p)
    (hk : p.jobs[k]? = some (t, .room c user))
    (hafter : After
      (Rows.modify (·.id = t.client) (Socket.enter (channelRoom c.text)) p.state.sockets)
      p.state.server.redis p.state.server.db.users g') :
    Agree ⟨p.jobs.set k (t, .addMember c user), g'⟩ := by
  have hentrant := (horderly.fits _ (List.mem_of_getElem? hk)).entrant user rfl
  apply h.sameSets hk hafter.redis _ _ nofun fun _ _ => rfl
  · intro id c' hin
    obtain ⟨s, hs, huser, hroom⟩ := hasInside_iff.mp hin
    left
    rw [hasInside_iff, hafter.sockets]
    refine ⟨_, Rows.mem_modify.mpr ⟨s, hs, rfl⟩, ?_⟩
    split_ifs
    · exact ⟨huser, mem_enter.mpr (.inr hroom)⟩
    · exact ⟨huser, hroom⟩
  · intro id c' hin
    obtain ⟨s', hs', ⟨u, hu, hid⟩, hroom⟩ := hasInside_iff.mp hin
    rw [hafter.sockets] at hs'
    obtain ⟨s, hs, rfl⟩ := Rows.mem_modify.mp hs'
    split_ifs at hu hroom with hclient
    · rcases mem_enter.mp hroom with heq | hold
      · right
        have huser := hentrant s hs (of_decide_eq_true hclient)
        have hkey : membersKey c.text = membersKey c' := congrArg (· ++ ":members") heq.symm
        rw [Option.some.inj (huser.symm.trans hu)]
        simp [Phase.adds, hid, hkey]
      · exact .inl (hasInside_iff.mpr ⟨s, hs, ⟨u, hu, hid⟩, hold⟩)
    · exact .inl (hasInside_iff.mpr ⟨s, hs, ⟨u, hu, hid⟩, hroom⟩)

/-- Sockets that leave the room of `c` have the account that is to be removed from its set. -/
theorem leaves_agree {user : Profile} {c : String} (horderly : Orderly p) (h : Agree p)
    (hk : p.jobs[k]? = some (t, .idle))
    (haccount : WebsocketGateway.account t.client p.state = some user)
    (hafter : After (Rows.modify (·.id = t.client) (Socket.exit (channelRoom c)) p.state.sockets)
      p.state.server.redis p.state.server.db.users g') :
    Agree ⟨p.jobs.set k (t, .dropMember c user), g'⟩ := by
  apply h.sameSets hk hafter.redis _ _ nofun fun _ _ => rfl
  · intro id c' hin
    obtain ⟨s, hs, ⟨u, hu, hid⟩, hroom⟩ := hasInside_iff.mp hin
    by_cases hleaves : s.id = t.client ∧ channelRoom c' = channelRoom c
    · right
      have huser := account_user horderly.nodup haccount hs hleaves.1
      have hkey : membersKey c = membersKey c' := congrArg (· ++ ":members") hleaves.2.symm
      rw [Option.some.inj (huser.symm.trans hu)]
      simp [Phase.drops, hid, hkey]
    · left
      rw [hasInside_iff, hafter.sockets]
      refine ⟨_, Rows.mem_modify.mpr ⟨s, hs, rfl⟩, ?_⟩
      split_ifs with hclient
      · have hne : channelRoom c' ≠ channelRoom c :=
          fun heq => hleaves ⟨of_decide_eq_true hclient, heq⟩
        exact ⟨⟨u, hu, hid⟩, mem_exit.mpr ⟨hroom, hne⟩⟩
      · exact ⟨⟨u, hu, hid⟩, hroom⟩
  · intro id c' hin
    obtain ⟨s', hs', ⟨u, hu, hid⟩, hroom⟩ := hasInside_iff.mp hin
    rw [hafter.sockets] at hs'
    obtain ⟨s, hs, rfl⟩ := Rows.mem_modify.mp hs'
    left
    split_ifs at hu hroom
    · exact hasInside_iff.mpr ⟨s, hs, ⟨u, hu, hid⟩, (mem_exit.mp hroom).1⟩
    · exact hasInside_iff.mpr ⟨s, hs, ⟨u, hu, hid⟩, hroom⟩

/-- The keys that a handler lists are those of all sets with its user. -/
theorem lists_agree {user : Profile} (havailable : Available p) (h : Agree p)
    (hk : p.jobs[k]? = some (t, .memberKeys user)) (hafter : Undisturbed p.state g') :
    Agree ⟨p.jobs.set k (t, .forget user 1 (if t.env.redisFails 0 then []
      else (p.state.server.redis.keys t.env.now).filter isMembersKey)), g'⟩ := by
  rw [havailable _ (List.mem_of_getElem? hk), if_neg Bool.false_ne_true]
  have hsame := hasInside_same hafter.sockets
  apply h.next hk
  · rw [hafter.redis]
    exact h.sets
  · intro now id c hmem hnot
    rw [hafter.redis] at hmem
    exact absurd hmem hnot
  · exact fun id c hin => .inl (hsame _ _ ▸ hin)
  · intro now id c hmem hdrop
    rw [hafter.redis] at hmem
    have hid : user.id.toText = id := by simpa [Phase.drops] using hdrop
    exact decide_eq_true ⟨hid, mem_keys_of_mem h.sets _ hmem⟩
  · exact fun id c hin => .inl (hsame _ _ ▸ hin)
  · intro now id c hmem _
    rw [hafter.redis]
    exact .inl hmem
  · exact fun now id c hadd => by cases hadd

/-- An addition to a set: the user has a socket in the room, or is to be removed again. -/
theorem added_agree {user : Profile} {c : BodyField String} {worked : Option Redis} (h : Agree p)
    (hk : p.jobs[k]? = some (t, .addMember c user)) (hstrays : strays p k = false)
    (hworked : sadd t.env (membersKey c.text) user.id.toText p.state.server.redis = worked)
    (hafter : After p.state.sockets (worked.getD p.state.server.redis) p.state.server.db.users g') :
    Agree ⟨p.jobs.set k (t, .members c user), g'⟩ := by
  have hsame := hasInside_same hafter.sockets
  obtain ⟨redis, hsadd, hsets, hmembers⟩ :=
    sadd_members t.env user.id.toText h.sets (isMembersKey_membersKey c.text)
  have hredis : g'.server.redis = redis := by rw [hafter.redis, ← hworked, hsadd, Option.getD_some]
  apply h.next hk
  · rw [hredis]
    exact hsets
  · intro now id c' hmem hnot
    rw [hredis, hmembers] at hmem
    obtain ⟨hkey, rfl⟩ := hmem.resolve_left hnot
    rw [hkey, hsame]
    simp only [strays, hk, Bool.and_eq_false_iff, Bool.not_eq_false'] at hstrays
    rcases hstrays with hin | hdrop
    · exact .inl hin
    · right
      rw [dropsLater, jobs_any _ hk] at hdrop
      simpa [Phase.drops] using hdrop
  · exact fun id c' hin => .inl (hsame _ _ ▸ hin)
  · exact fun now id c' _ hdrop => by cases hdrop
  · exact fun id c' hin => .inl (hsame _ _ ▸ hin)
  · intro now id c' hmem _
    left
    rw [hredis, hmembers]
    exact .inl hmem
  · intro now id c' hadd
    have hboth : user.id.toText = id ∧ membersKey c.text = membersKey c' := by
      simpa [Phase.adds] using hadd
    rw [hredis, hmembers]
    exact .inr ⟨hboth.2.symm, hboth.1.symm⟩

/-- A removal from a set: the user has no socket in the room, or is to be added again. -/
theorem removed_agree {user : Profile} {key : String} (h : Agree p)
    (hk : p.jobs[k]? = some (t, phase)) (hkey : isMembersKey key = true)
    (hstays : p.state.hasInside user.id.toText key = true → addsLater p user.id.toText key = true)
    (hadds : ∀ id key, phase.adds id key = false)
    (hdrops : ∀ id key', phase.drops id key' = true →
      user.id.toText = id ∧ key = key' ∨ phase'.drops id key' = true)
    (hafter : After p.state.sockets
      ((srem t.env key user.id.toText p.state.server.redis).getD p.state.server.redis)
      p.state.server.db.users g') : Agree ⟨p.jobs.set k (t, phase'), g'⟩ := by
  have hsame := hasInside_same hafter.sockets
  obtain ⟨redis, hsrem, hsets, hmembers⟩ := srem_members t.env user.id.toText h.sets hkey
  have hredis : g'.server.redis = redis := by rw [hafter.redis, hsrem, Option.getD_some]
  apply h.next hk
  · rw [hredis]
    exact hsets
  · intro now id c hmem hnot
    rw [hredis, hmembers] at hmem
    exact absurd hmem.1 hnot
  · exact fun id c hin => .inl (hsame _ _ ▸ hin)
  · intro now id c hmem hdrop
    rw [hredis, hmembers] at hmem
    rcases hdrops id _ hdrop with ⟨hid, heq⟩ | hdrop'
    · exact absurd ⟨heq.symm, hid.symm⟩ hmem.2
    · exact hdrop'
  · exact fun id c hin => .inl (hsame _ _ ▸ hin)
  · intro now id c hmem hin
    rw [hsame] at hin
    rw [hredis, hmembers]
    by_cases hremoved : membersKey c = key ∧ id = user.id.toText
    · right
      obtain ⟨rfl, rfl⟩ := hremoved
      have hadd := hstays hin
      rw [addsLater, jobs_any _ hk] at hadd
      simpa [hadds] using hadd
    · exact .inl ⟨hmem, hremoved⟩
  · intro now id c hadd
    rw [hadds] at hadd
    exact nomatch hadd

theorem turns_agree (havailable : Available p) (horderly : Orderly p) (h : Agree p)
    (hk : p.jobs[k]? = some (t, phase)) (hfresh : freshClient p k = true)
    (hstrays : strays p k = false)
    (hturns : Turns t p.state g' phase phase') : Agree ⟨p.jobs.set k (t, phase'), g'⟩ := by
  have hfits := horderly.fits _ (List.mem_of_getElem? hk)
  have hredis := havailable _ (List.mem_of_getElem? hk)
  cases hturns with
  | calm hcalm hafter => exact h.still hk hafter.redis hafter.sockets hcalm.drops hcalm.adds
  | opens hconnects hafter => exact opens_agree h hk hafter
  | declines hconnects hafter =>
    apply h.guestGone hk hafter.redis hafter.sockets _ (fun _ _ h => by cases h) fun _ _ => rfl
    intro s hs hid
    simp only [freshClient, hk, hconnects, Bool.not_true, Bool.false_or, Bool.and_eq_true,
      List.all_eq_true, decide_eq_true_eq] at hfresh
    exact absurd hid (hfresh.1 s hs)
  | attaches hid hmem hafter =>
    subst hid
    exact attaches_agree horderly h hk hafter
  | refuses hmem hafter =>
    exact h.guestGone hk hafter.redis hafter.sockets (hfits.attaching rfl)
      (fun _ _ h => by cases h) fun _ _ => rfl
  | comes hafter =>
    exact h.still hk hafter.redis hafter.sockets (fun _ _ h => by cases h) fun _ _ => rfl
  | vanishes hmem hafter => exact absurd (hfits.owner _ rfl) hmem
  | ends haccount hafter =>
    apply h.sameSets hk hafter.redis (left_remove hafter.sockets _) _
      (fun _ _ h => by cases h) fun _ _ => rfl
    · intro s hs hid u hu c _
      have huser := account_user horderly.nodup haccount hs hid
      simp [Phase.drops, Option.some.inj (huser.symm.trans hu)]
    · exact fun id c hin => .inl (entered_remove hafter.sockets id c hin)
  | endsUnknown haccount hcalm hafter =>
    exact h.guestGone hk hafter.redis hafter.sockets
      (fun s hs hid => account_guest horderly.nodup haccount hs hid) hcalm.drops hcalm.adds
  | goes hafter => exact h.still hk hafter.redis hafter.sockets (fun _ _ hd => hd) fun _ _ => rfl
  | stops hmem hafter => exact absurd (hfits.owner _ rfl) hmem
  | lists hafter => exact lists_agree havailable h hk hafter
  | aside hcalm hf hafter =>
    have hsame := aside_hasInside hf hafter.sockets
    exact h.sameSets hk hafter.redis (fun id c hin => .inl (hsame _ _ ▸ hin))
      (fun id c hin => .inl (hsame _ _ ▸ hin)) hcalm.drops hcalm.adds
  | asks haccount hafter =>
    exact h.still hk hafter.redis hafter.sockets (fun _ _ h => by cases h) fun _ _ => rfl
  | enters hafter => exact enters_agree horderly h hk hafter
  | leaves haccount hafter => exact leaves_agree horderly h hk haccount hafter
  | added hworked hafter =>
    rw [attempted_eq (hredis 0)] at hworked
    exact added_agree h hk hstrays hworked hafter
  | dropped hworked hafter =>
    rw [attempted_eq (hredis 0)] at hworked
    subst hworked
    apply removed_agree h hk (isMembersKey_membersKey _) _ (fun _ _ => rfl) _ hafter
    · simpa [strays, hk] using hstrays
    · intro id key' hdrop
      left
      simpa [Phase.drops] using hdrop
  | @forgets user site key keys _ hworked hafter =>
    rw [attempted_eq (hredis site)] at hworked
    subst hworked
    have hkey := hfits.keysLeft key List.mem_cons_self
    obtain ⟨redis, hsrem, -, -⟩ := srem_members t.env user.id.toText h.sets hkey
    rw [if_pos (by rw [hsrem]; rfl)]
    apply removed_agree h hk hkey _ (fun _ _ => rfl) _ hafter
    · simpa [strays, hk] using hstrays
    · intro id key' hdrop
      simp only [Phase.drops, decide_eq_true_eq, List.mem_cons] at hdrop ⊢
      rcases hdrop with ⟨hid, heq | hrest⟩
      · exact .inl ⟨hid, heq.symm⟩
      · exact .inr ⟨hid, hrest⟩

theorem turn_agree (havailable : Available p) (horderly : Orderly p) (h : Agree p)
    (hfresh : freshClient p k = true) (hstrays : strays p k = false) :
    Agree (p.turn move k).2 :=
  turn_turns h fun _ _ _ _ hk hturns =>
    turns_agree havailable horderly h hk hfresh hstrays hturns

/-! ### Runs -/

theorem waiting_idle {ts : List Task} {l : Task × Phase} (hl : l ∈ (waiting ts g).jobs) :
    ∃ t ∈ ts, l = (t, .idle) := by
  obtain ⟨t, ht, rfl⟩ := List.mem_map.mp hl
  exact ⟨t, ht, rfl⟩

theorem waiting_orderly {ts : List Task} (hsockets : g.sockets = []) : Orderly (waiting ts g) := by
  constructor
  · simp [waiting, hsockets]
  · simp [waiting, hsockets]
  · simp [waiting, hsockets]
  · intro l hl
    obtain ⟨t, -, rfl⟩ := waiting_idle hl
    exact fits_of_done rfl rfl rfl rfl
  · intro client
    have hnone : (waiting ts g).jobs.countP (attachesTo client) = 0 := by
      apply List.countP_eq_zero.mpr
      intro l hl
      obtain ⟨t, -, rfl⟩ := waiting_idle hl
      simp [attachesTo, Phase.attaching]
    omega

theorem waiting_agree {ts : List Task} (hsockets : g.sockets = [])
    (hsets : ∀ e ∈ g.server.redis, isMembersKey e.1 = false) : Agree (waiting ts g) := by
  constructor
  · exact holdsSets_of_none hsets
  · intro now id c hmem
    rw [show (waiting ts g).state.server.redis = g.server.redis from rfl,
      membersAt_of_none hsets] at hmem
    exact nomatch hmem
  · intro now id c hin
    simp [Gateway.hasInside, waiting, hsockets] at hin

theorem resting_pending {phase : Phase} (h : phase.resting = true) (id key : String) :
    phase.drops id key = false ∧ phase.adds id key = false := by
  cases phase with
  | idle | finished => exact ⟨rfl, rfl⟩
  | _ => exact nomatch h

theorem resting_agree (h : Agree p) (hrest : ∀ l ∈ p.jobs, l.2.resting = true) (now : Date)
    (id c : String) : id ∈ membersAt now p.state.server.redis (membersKey c) ↔
      p.state.hasInside id (membersKey c) = true := by
  have hdrops : dropsLater p id (membersKey c) = false := by
    apply List.any_eq_false.mpr
    intro l hl
    simp [(resting_pending (hrest l hl) id (membersKey c)).1]
  have hadds : addsLater p id (membersKey c) = false := by
    apply List.any_eq_false.mpr
    intro l hl
    simp [(resting_pending (hrest l hl) id (membersKey c)).2]
  constructor
  · intro hmem
    have hin := h.members now id c hmem
    simpa [hdrops] using hin
  · intro hin
    have hmem := h.insiders now id c hin
    simpa [hadds] using hmem

/-- When no handler is running, the set of members of each channel is that of the users with a
socket in its room, if no addition to a set and no removal from one strayed. -/
theorem member_sets_agree (ts : List Task) (g : Gateway) (ks : List Nat)
    (havailable : ∀ t ∈ ts, ∀ site, t.env.redisFails site = false) (hsockets : g.sockets = [])
    (hsets : ∀ e ∈ g.server.redis, isMembersKey e.1 = false)
    (hfresh : Along (Pool.turn move) (fun p k => freshClient p k = true) (waiting ts g) ks)
    (hstrays : Along (Pool.turn move) (fun p k => strays p k = false) (waiting ts g) ks)
    (hrest : ∀ l ∈ (run (Pool.turn move) (waiting ts g) ks).jobs, l.2.resting = true) :
    let g' := (run (Pool.turn move) (waiting ts g) ks).state
    (∀ now id c, id ∈ membersAt now g'.server.redis (membersKey c) ↔
      ∃ s ∈ g'.sockets, (∃ user, s.user = some user ∧ user.id.toText = id) ∧
        channelRoom c ∈ s.rooms) ∧
      ∀ now u c, g'.attached u = false →
        u.toText ∉ membersAt now g'.server.redis (membersKey c) := by
  intro g'
  have hstart : Available (waiting ts g) ∧ Orderly (waiting ts g) ∧ Agree (waiting ts g) := by
    refine ⟨?_, waiting_orderly hsockets, waiting_agree hsockets hsets⟩
    intro l hl
    obtain ⟨t, ht, rfl⟩ := waiting_idle hl
    exact havailable t ht
  have hend := (along_and.mpr ⟨hfresh, hstrays⟩).invariant
    (I := fun p => Available p ∧ Orderly p ∧ Agree p)
    (fun p k ⟨hp, ho, ha⟩ ⟨hf, hs⟩ =>
      ⟨turn_available hp, turn_orderly ho hf, turn_agree hp ho ha hf hs⟩) hstart
  have hagree : ∀ now id c, id ∈ membersAt now g'.server.redis (membersKey c) ↔
      ∃ s ∈ g'.sockets, (∃ user, s.user = some user ∧ user.id.toText = id) ∧
        channelRoom c ∈ s.rooms := fun now id c =>
    (resting_agree hend.2.2 hrest now id c).trans hasInside_iff
  refine ⟨hagree, fun now u c hunattached hmem => ?_⟩
  obtain ⟨s, hs, ⟨user, huser, hid⟩, -⟩ := (hagree now u.toText c).mp hmem
  have hattached : g'.attached u = true :=
    List.any_eq_true.mpr ⟨s, hs, by simp [huser, Uuid.toText_injective hid]⟩
  rw [hunattached] at hattached
  exact nomatch hattached

/-- The server on which Alice is registered and has opened a channel. -/
def channelOpened : Server :=
  run (serve sampleExternals) Server.empty
    [(sampleEnv 1, ⟨none, .auth (.register ⟨"alice", "alice@mail", "secret"⟩)⟩),
      (sampleEnv 3, ⟨some (sampleToken 1 "alice"),
        .channels (.create ⟨"general", .text, .absent, .absent, .absent, .absent⟩)⟩)]

def generalChannel : String := (sampleUuid 3 0).toText

def aliceConnects (n : Nat) (client : String) : Task :=
  ⟨sampleEnv n, client, .connection ⟨some (sampleToken 1 "alice"), none, none⟩⟩

/-- Alice joins the channel with two sockets and leaves it with one. -/
def twoSockets : List Task :=
  [aliceConnects 4 "first", aliceConnects 5 "second",
    ⟨sampleEnv 6, "first", .joinChannel (.value generalChannel)⟩,
    ⟨sampleEnv 7, "second", .joinChannel (.value generalChannel)⟩,
    ⟨sampleEnv 8, "first", .leaveChannel generalChannel⟩]

/-- Job `k` runs to its end. -/
def wholly (k : Nat) : List Nat := List.replicate 7 k

theorem twoSockets_available : ∀ t ∈ twoSockets, ∀ site, t.env.redisFails site = false := by
  intro t ht
  simp only [twoSockets, List.mem_cons, List.not_mem_nil, or_false] at ht
  rcases ht with rfl | rfl | rfl | rfl | rfl <;> exact fun _ => rfl

/-- Both sockets connect and join. -/
def bothJoin : List Nat := wholly 0 ++ wholly 1 ++ wholly 2 ++ wholly 3

theorem bothJoin_agree :
    let g' := (run (Pool.turn move) (waiting twoSockets ⟨channelOpened, [], []⟩) bothJoin).state
    (∀ now id c, id ∈ membersAt now g'.server.redis (membersKey c) ↔
      ∃ s ∈ g'.sockets, (∃ user, s.user = some user ∧ user.id.toText = id) ∧
        channelRoom c ∈ s.rooms) ∧
      ∀ now u c, g'.attached u = false →
        u.toText ∉ membersAt now g'.server.redis (membersKey c) :=
  member_sets_agree twoSockets ⟨channelOpened, [], []⟩ bothJoin twoSockets_available rfl
    (by decide +kernel) (by decide +kernel) (by decide +kernel) (by decide +kernel)

/-- Then the first leaves. -/
def oneLeaves : List Nat := bothJoin ++ wholly 4

theorem oneLeaves_disagree :
    let start := waiting twoSockets ⟨channelOpened, [], []⟩
    let p := run (Pool.turn move) start oneLeaves
    (∀ t ∈ twoSockets, ∀ site, t.env.redisFails site = false) ∧
      (∀ e ∈ start.state.server.redis, isMembersKey e.1 = false) ∧
      Along (Pool.turn move) (fun p k => freshClient p k = true) start oneLeaves ∧
      (∀ l ∈ p.jobs, l.2.resting = true) ∧
      ¬∀ now id c, id ∈ membersAt now p.state.server.redis (membersKey c) ↔
        ∃ s ∈ p.state.sockets, (∃ user, s.user = some user ∧ user.id.toText = id) ∧
          channelRoom c ∈ s.rooms := by
  refine ⟨twoSockets_available, by decide +kernel, by decide +kernel, by decide +kernel, ?_⟩
  intro hagree
  have hin := (hagree 0 alice.id.toText generalChannel).mpr (hasInside_iff.mp (by decide +kernel))
  exact absurd hin (by decide +kernel)

end Task

end VoxLink
