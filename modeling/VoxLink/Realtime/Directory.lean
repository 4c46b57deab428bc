import VoxLink.Realtime.Members

/-! The sets of members as a relation between channels and users. The id of a channel becomes a part
of the name of a key, and is cut out of it again. -/

namespace VoxLink

open ProofKit Prog WebsocketService

/-! ### Names of keys -/

/-- Keys of invites, of magic links, of statuses and of signaling. -/
def isOtherKey (key : String) : Bool :=
  ["invite:", "magic:", "user:", "signaling:"].any fun start => start.toList.isPrefixOf key.toList

variable {redis redis' : Redis} {env : Env} {now : Date} {key c u : String}

theorem not_membersKey_of_other (h : isOtherKey key = true) : isMembersKey key = false := by
  obtain ⟨start, hstart, hprefix⟩ := List.any_eq_true.mp h
  rw [List.isPrefixOf_iff_prefix] at hprefix
  rw [← Bool.not_eq_true, isMembersKey, Bool.and_eq_true, Bool.and_eq_true,
    List.isPrefixOf_iff_prefix]
  rintro ⟨⟨hchannel, -⟩, -⟩
  have hcompares := List.prefix_or_prefix_of_prefix hprefix hchannel
  clear hprefix hchannel
  revert start
  decide

theorem colon_notMem (h : (Uuid.parse c).isSome = true) : ':' ∉ c.toList := by
  obtain ⟨v, hv⟩ := Option.isSome_iff_exists.mp h
  intro hcolon
  exact absurd (Uuid.isTextChar_of_parse hv hcolon) (by decide)

/-- The name of a key gives back the id that it was made of. -/
theorem channelOf_membersKey (h : (Uuid.parse c).isSome = true) : channelOf (membersKey c) = c := by
  have hkey : (membersKey c).toList = [] ++ ("channel:".toList ++
      (c.toList ++ ":members".toList)) := by
    rw [membersKey, String.toList_append, String.toList_append, List.append_assoc, List.nil_append]
  have hstart : removeFirst "channel:".toList (membersKey c).toList =
      c.toList ++ (":members".toList ++ []) := by
    rw [hkey, List.append_nil]
    exact removeFirst_append List.not_mem_nil
  have hend : removeFirst ":members".toList (c.toList ++ (":members".toList ++ [])) =
      c.toList ++ [] :=
    removeFirst_append (colon_notMem h)
  rw [channelOf, hstart, hend, List.append_nil, String.ofList_toList]

/-! ### The relation -/

/-- A call of the service, or what another part of the application does to a key of its own. -/
inductive PresenceCall where
  | addChannelMember (channelId userId : String)
  | removeChannelMember (channelId userId : String)
  | removeChannelMemberFromAll (userId : String)
  | putOther (key : String) (v : RedisValue) (deadline : Option Date)
  | delOther (key : String)

namespace PresenceCall

def step (s : Server) (i : Env × PresenceCall) : Unit × Server :=
  match i.2 with
  | addChannelMember c u => ((), (WebsocketService.addChannelMember i.1 0 c u).final s)
  | removeChannelMember c u => ((), (WebsocketService.removeChannelMember i.1 0 c u).final s)
  | removeChannelMemberFromAll u =>
    ((), (WebsocketService.removeChannelMemberFromAll i.1 u).final s)
  | putOther key v deadline => ((), { s with redis := s.redis.put key v deadline })
  | delOther key => ((), { s with redis := s.redis.del key })

/-- Which user is a member of which channel. -/
abbrev Membership := Set (String × String)

/-- What a call means for the members. -/
def relate (R : Membership) (i : Env × PresenceCall) : Unit × Membership :=
  match i.2 with
  | addChannelMember c u => ((), insert (c, u) R)
  | removeChannelMember c u => ((), R \ {(c, u)})
  | removeChannelMemberFromAll u => ((), {p ∈ R | p.2 ≠ u})
  | putOther _ _ _ | delOther _ => ((), R)

/-- Redis does not fail, members are added to channels that a uuid names, and the other parts of the
application keep to their keys. -/
def Proper (i : Env × PresenceCall) : Prop :=
  (∀ site, i.1.redisFails site = false) ∧
  match i.2 with
  | addChannelMember c _ => (Uuid.parse c).isSome = true
  | putOther key _ _ | delOther key => isOtherKey key = true
  | _ => True

/-- What Redis holds is the relation. -/
structure Represents (redis : Redis) (R : Membership) : Prop where
  sets : HoldsSets redis
  distinct : (redis.names.filter isMembersKey).Nodup
  named : ∀ key ∈ redis.names, isMembersKey key = true →
    ∃ c, (Uuid.parse c).isSome = true ∧ membersKey c = key
  single : ∀ now key, isMembersKey key = true → (membersAt now redis key).Nodup
  related : ∀ now c u, u ∈ membersAt now redis (membersKey c) ↔ (c, u) ∈ R

variable {R : Membership} {s : Server}

/-- A change under one key. -/
theorem Represents.change (h : Represents redis R) (key : String) (ids : List String)
    {R' : Membership} (hsets : HoldsSets redis')
    (hnames : redis'.names = key :: redis.names.filter (· ≠ key) ∨
      redis'.names.Sublist redis.names)
    (hnamed : key ∈ redis'.names → ∃ c, (Uuid.parse c).isSome = true ∧ membersKey c = key)
    (hmembers : ∀ now key', membersAt now redis' key' =
      if key' = key then ids else membersAt now redis key')
    (hids : ids.Nodup)
    (hrelated : ∀ c u, (c, u) ∈ R' ↔ if membersKey c = key then u ∈ ids else (c, u) ∈ R) :
    Represents redis' R' := by
  constructor
  · exact hsets
  · rcases hnames with hnames | hnames
    · rw [hnames, List.filter_cons]
      have hrest : ((redis.names.filter (· ≠ key)).filter isMembersKey).Nodup := by
        rw [List.filter_comm]
        exact h.distinct.filter _
      split_ifs
      · refine List.nodup_cons.mpr ⟨fun hmem => ?_, hrest⟩
        simpa using (List.mem_filter.mp (List.mem_filter.mp hmem).1).2
      · exact hrest
    · exact h.distinct.sublist (hnames.filter _)
  · intro key' hkey' hmembersKey
    by_cases heq : key' = key
    · subst heq
      exact hnamed hkey'
    · refine h.named key' ?_ hmembersKey
      rcases hnames with hnames | hnames
      · rw [hnames] at hkey'
        exact (List.mem_filter.mp ((List.mem_cons.mp hkey').resolve_left heq)).1
      · exact hnames.subset hkey'
  · intro now key' hkey'
    rw [hmembers]
    split_ifs
    · exact hids
    · exact h.single now key' hkey'
  · intro now c u
    rw [hmembers, hrelated]
    split_ifs
    · exact Iff.rfl
    · exact h.related now c u

theorem nodup_withMember {ids : List String} (h : ids.Nodup) : (withMember u ids).Nodup := by
  unfold withMember
  split_ifs with hmem
  · exact h
  · rw [← List.concat_eq_append]
    exact h.concat hmem

theorem sadd_names (h : sadd env key u redis = some redis') :
    redis'.names = key :: redis.names.filter (· ≠ key) ∨
      redis'.names.Sublist redis.names := by
  unfold sadd at h
  split at h
  · obtain rfl := Option.some.inj h
    exact .inl (Keyspace.names_put)
  · obtain rfl := Option.some.inj h
    split_ifs
    · exact .inr (List.Sublist.refl _)
    · exact .inl (Keyspace.names_put)
  · exact nomatch h

/-- `SREM` stores nothing under a key that was not there. -/
theorem srem_names (h : srem env key u redis = some redis') :
    (redis'.names = key :: redis.names.filter (· ≠ key) ∨
      redis'.names.Sublist redis.names) ∧
    (key ∈ redis'.names → key ∈ redis.names) := by
  unfold srem at h
  split at h
  · obtain rfl := Option.some.inj h
    exact ⟨.inr (List.Sublist.refl _), fun hkey => hkey⟩
  · rename_i ids hget
    obtain rfl := Option.some.inj h
    refine ⟨?_, fun _ => Keyspace.mem_names_of_get hget⟩
    split_ifs
    · rw [Keyspace.names_del]
      exact .inr List.filter_sublist
    · exact .inl (Keyspace.names_put)
  · exact nomatch h

theorem Represents.sadd (h : Represents redis R) (hc : (Uuid.parse c).isSome = true) (env : Env)
    (u : String) : ∃ redis', WebsocketService.sadd env (membersKey c) u redis = some redis' ∧
      Represents redis' (insert (c, u) R) := by
  have hkey := isMembersKey_membersKey c
  obtain ⟨redis', hsadd, hsets, hmembers⟩ := sadd_membersAt env u h.sets hkey
  refine ⟨redis', hsadd, h.change (membersKey c)
    (withMember u (membersAt env.now redis (membersKey c))) hsets (sadd_names hsadd) ?_ ?_ ?_ ?_⟩
  · exact fun _ => ⟨c, hc, rfl⟩
  · intro now key'
    rw [hmembers, h.sets.membersAt_eq hkey now env.now]
  · exact nodup_withMember (h.single env.now _ hkey)
  · intro c' u'
    rw [Set.mem_insert_iff, Prod.mk.injEq]
    split_ifs with heq
    · obtain rfl := membersKey_injective heq
      rw [mem_withMember, h.related]
      tauto
    · have hne : c' ≠ c := fun hcc => heq (congrArg membersKey hcc)
      tauto

theorem Represents.srem (h : Represents redis R) (hkey : isMembersKey key = true) (env : Env)
    (u : String) : ∃ redis', WebsocketService.srem env key u redis = some redis' ∧
      Represents redis' {p ∈ R | ¬(membersKey p.1 = key ∧ p.2 = u)} := by
  obtain ⟨redis', hsrem, hsets, hmembers⟩ := srem_membersAt env u h.sets hkey
  obtain ⟨hnames, hkept⟩ := srem_names hsrem
  refine ⟨redis', hsrem, h.change key ((membersAt env.now redis key).filter (· ≠ u)) hsets hnames
    ?_ ?_ ?_ ?_⟩
  · exact fun hname => h.named key (hkept hname) hkey
  · intro now key'
    rw [hmembers, h.sets.membersAt_eq hkey now env.now]
  · exact (h.single env.now key hkey).filter _
  · intro c u'
    show (c, u') ∈ R ∧ ¬(membersKey c = key ∧ u' = u) ↔ _
    split_ifs with heq
    · subst heq
      simp [h.related]
    · tauto

/-! ### Calls -/

variable {R' : Membership} {i : Env × PresenceCall}

theorem attempt_represents {site : Nat} {command : Redis → Option Redis}
    (hsite : env.redisFails site = false)
    (h : ∃ redis', command s.redis = some redis' ∧ Represents redis' R) :
    wp (attempt env site command) (fun worked s' => worked = true ∧ Represents s'.redis R)
      (fun _ _ => False) s := by
  obtain ⟨redis', hcommand, hafter⟩ := h
  apply attempt_runs.mono
  · rintro worked _ ⟨rfl, rfl⟩
    rw [attempted_eq hsite, hcommand]
    exact ⟨rfl, hafter⟩
  · exact fun _ _ h => h

theorem final_attempt_represents {site : Nat} {command : Redis → Option Redis}
    (hsite : env.redisFails site = false)
    (h : ∃ redis', command s.redis = some redis' ∧ Represents redis' R) :
    Represents ((do let _ ← attempt env site command : Backend Unit).final s).redis R := by
  apply wp.final (P := fun s' : Server => Represents s'.redis R)
  rw [wp_bind]
  apply (attempt_represents hsite h).mono
  · exact fun _ _ hafter => hafter.2
  · exact fun _ _ h => h.elim

theorem removeFrom_represents (hredis : ∀ site, env.redisFails site = false) (u : String)
    {keys : List String} (hkeys : ∀ key ∈ keys, isMembersKey key = true)
    (h : Represents s.redis R) (site : Nat) :
    wp (removeFrom env u site keys)
      (fun _ s' => Represents s'.redis {p ∈ R | ¬(membersKey p.1 ∈ keys ∧ p.2 = u)})
      (fun _ _ => False) s := by
  induction keys generalizing s R site with
  | nil =>
    have hall : {p ∈ R | ¬(membersKey p.1 ∈ ([] : List String) ∧ p.2 = u)} = R := by
      ext p
      simp
    rw [removeFrom, wp_pure, hall]
    exact h
  | cons key keys ih =>
    rw [removeFrom, wp_bind]
    apply (attempt_represents (hredis site) (h.srem (hkeys key List.mem_cons_self) env u)).mono
    · rintro worked s' ⟨rfl, hafter⟩
      rw [if_pos rfl]
      apply (ih (fun key' hkey' => hkeys key' (List.mem_cons_of_mem key hkey')) hafter
        (site + 1)).mono
      · intro _ s'' hrest
        convert hrest using 1
        ext p
        simp only [Set.mem_ofPred_eq, List.mem_cons]
        tauto
      · exact fun _ _ h => h
    · exact fun _ _ h => h

/-- A member has a key. -/
theorem Represents.mem_keys (h : Represents redis R) (hmember : (c, u) ∈ R) (now : Date) :
    membersKey c ∈ (redis.keys now).filter isMembersKey :=
  mem_keys_of_mem h.sets now ((h.related now c u).mpr hmember)

/-- A change of what is stored under other keys. -/
theorem Represents.elsewhere (h : Represents redis R) (hsets : HoldsSets redis')
    (hnames : redis'.names.filter isMembersKey = redis.names.filter isMembersKey)
    (hmembers : ∀ now key', isMembersKey key' = true →
      membersAt now redis' key' = membersAt now redis key') : Represents redis' R := by
  constructor
  · exact hsets
  · rw [hnames]
    exact h.distinct
  · intro key' hkey' hmembersKey
    have hold : key' ∈ redis.names.filter isMembersKey :=
      hnames ▸ List.mem_filter.mpr ⟨hkey', hmembersKey⟩
    exact h.named key' (List.mem_filter.mp hold).1 hmembersKey
  · intro now key' hkey'
    rw [hmembers now key' hkey']
    exact h.single now key' hkey'
  · intro now c u
    rw [hmembers now _ (isMembersKey_membersKey c)]
    exact h.related now c u

section OtherKeys

variable (hkey : isMembersKey key = false)

include hkey

theorem ne_other {key' : String} (h : isMembersKey key' = true) : key' ≠ key := by
  rintro rfl
  exact nomatch h.symm.trans hkey

theorem names_del_other : ((redis.del key).names).filter isMembersKey =
    redis.names.filter isMembersKey := by
  rw [Keyspace.names_del, List.filter_filter]
  apply List.filter_congr
  intro key' _
  cases hmembersKey : isMembersKey key' with
  | true => simp [ne_other hkey hmembersKey]
  | false => rfl

theorem Represents.delOther (h : Represents redis R) : Represents (redis.del key) R := by
  apply h.elsewhere (h.sets.del key) (names_del_other hkey)
  intro now key' hkey'
  rw [membersAt_del, if_neg (ne_other hkey hkey')]

theorem Represents.putOther (h : Represents redis R) (v : RedisValue) (deadline : Option Date) :
    Represents (redis.put key v deadline) R := by
  apply h.elsewhere
  · intro e he hmembersKey
    rcases List.mem_cons.mp he with rfl | hold
    · exact nomatch hmembersKey.symm.trans hkey
    · exact h.sets.del key e hold hmembersKey
  · have hnames : (redis.put key v deadline).names = key :: (redis.del key).names := rfl
    rw [hnames, List.filter_cons_of_neg (by simp [hkey]), names_del_other hkey]
  · intro now key' hkey'
    rw [membersAt, Keyspace.get_put_of_ne (ne_other hkey hkey'), membersAt]

end OtherKeys

/-- A call does to Redis what it means for the members. -/
theorem step_represents (h : Represents s.redis R) (hi : Proper i) :
    Represents (step s i).2.redis (relate R i).2 := by
  obtain ⟨env, call⟩ := i
  have hredis : ∀ site, env.redisFails site = false := hi.1
  have hcall := hi.2
  cases call with
  | addChannelMember c u => exact final_attempt_represents (hredis 0) (h.sadd hcall env u)
  | removeChannelMember c u =>
    have hsame : {p ∈ R | ¬(membersKey p.1 = membersKey c ∧ p.2 = u)} = R \ {(c, u)} := by
      ext p
      simp [membersKey_injective.eq_iff, Prod.ext_iff]
    have hremoved := h.srem (isMembersKey_membersKey c) env u
    rw [hsame] at hremoved
    exact final_attempt_represents (hredis 0) hremoved
  | removeChannelMemberFromAll u =>
    have hkeys : ∀ key ∈ (s.redis.keys env.now).filter isMembersKey, isMembersKey key = true :=
      fun key hkey => (List.mem_filter.mp hkey).2
    have hsame :
        {p ∈ R | ¬(membersKey p.1 ∈ (s.redis.keys env.now).filter isMembersKey ∧ p.2 = u)} =
        {p ∈ R | p.2 ≠ u} := by
      ext p
      refine and_congr_right fun hp => not_congr (and_iff_right ?_)
      exact h.mem_keys hp env.now
    have hwp := removeFrom_represents hredis u hkeys h 1
    rw [hsame] at hwp
    apply wp.final (P := fun s' : Server => Represents s'.redis {p ∈ R | p.2 ≠ u})
    simp only [WebsocketService.removeChannelMemberFromAll, wp_bind, wp_query, hredis 0,
      Bool.false_eq_true, if_false]
    exact hwp.mono (fun _ _ h => h) fun _ _ h => h.elim
  | putOther key v deadline => exact h.putOther (not_membersKey_of_other hcall) v deadline
  | delOther key => exact h.delOther (not_membersKey_of_other hcall)

/-! ### Answers -/

theorem sismember_eq (h : HoldsSets redis) (hkey : isMembersKey key = true) (u : String) :
    sismember env key u redis = some (decide (u ∈ membersAt env.now redis key)) := by
  unfold sismember
  cases hget : redis.get env.now key with
  | none => simp [membersAt_none hget]
  | some v =>
    obtain ⟨ids, rfl⟩ := h.get_members hkey hget
    simp [membersAt_of_get hget]

theorem channelsAmong_eq (hredis : ∀ site, env.redisFails site = false) (h : HoldsSets redis)
    (u : String) {keys : List String} (hkeys : ∀ key ∈ keys, isMembersKey key = true) (site : Nat) :
    channelsAmong env u redis site keys =
      some ((keys.filter fun key => u ∈ membersAt env.now redis key).map channelOf) := by
  induction keys generalizing site with
  | nil => rfl
  | cons key keys ih =>
    have hrest := ih (fun key' hkey' => hkeys key' (List.mem_cons_of_mem key hkey')) (site + 1)
    rw [channelsAmong, hredis site, sismember_eq h (hkeys key List.mem_cons_self), hrest]
    by_cases hmember : u ∈ membersAt env.now redis key
    · simp [hmember]
    · simp [hmember]

/-- What the service answers is the relation. -/
structure Answers (env : Env) (s : Server) (R : Membership) : Prop where
  channels : ∀ u, ∃ cs, getUserChannels env u s = .ok cs s ∧ cs.Nodup ∧ ∀ c, c ∈ cs ↔ (c, u) ∈ R
  members : ∀ c, ∃ ids, getChannelMembers env 0 c s = .ok ids s ∧ ids.Nodup ∧
    ∀ u, u ∈ ids ↔ (c, u) ∈ R

theorem Represents.userChannels (h : Represents s.redis R)
    (hredis : ∀ site, env.redisFails site = false) (u : String) :
    ∃ cs, getUserChannels env u s = .ok cs s ∧ cs.Nodup ∧ ∀ c, c ∈ cs ↔ (c, u) ∈ R := by
  have hkeys : ∀ key ∈ (s.redis.keys env.now).filter isMembersKey, isMembersKey key = true :=
    fun key hkey => (List.mem_filter.mp hkey).2
  -- the id that is cut out of a key is the one the key was made of
  have hcut : ∀ key ∈ (s.redis.keys env.now).filter isMembersKey,
      membersKey (channelOf key) = key := by
    intro key hkey
    obtain ⟨c, hc, rfl⟩ := h.named key (Keyspace.keys_sublist_names.subset
      (List.mem_filter.mp hkey).1)
      (hkeys key hkey)
    rw [channelOf_membersKey hc]
  refine ⟨(((s.redis.keys env.now).filter isMembersKey).filter
    fun key => u ∈ membersAt env.now s.redis key).map channelOf, query_at ?_, ?_, fun c => ?_⟩
  · simp only [hredis 0, Bool.false_eq_true, if_false, channelsAmong_eq hredis h.sets u hkeys,
      Option.getD_some]
  · apply List.Nodup.map_on
    · intro key hkey key' hkey' heq
      rw [← hcut key (List.mem_filter.mp hkey).1, heq, hcut key' (List.mem_filter.mp hkey').1]
    · exact (h.distinct.sublist (Keyspace.keys_sublist_names.filter _)).filter _
  · rw [List.mem_map]
    constructor
    · rintro ⟨key, hkey, rfl⟩
      obtain ⟨hkey, hmember⟩ := List.mem_filter.mp hkey
      rw [← h.related env.now, hcut key hkey]
      exact of_decide_eq_true hmember
    · intro hrelated
      have hkey := h.mem_keys hrelated env.now
      refine ⟨membersKey c, List.mem_filter.mpr ⟨hkey, ?_⟩, membersKey_injective (hcut _ hkey)⟩
      exact decide_eq_true ((h.related env.now c u).mpr hrelated)

theorem Represents.channelMembers (h : Represents s.redis R)
    (hredis : ∀ site, env.redisFails site = false) (c : String) :
    ∃ ids, getChannelMembers env 0 c s = .ok ids s ∧ ids.Nodup ∧ ∀ u, u ∈ ids ↔ (c, u) ∈ R := by
  refine ⟨membersAt env.now s.redis (membersKey c), query_at ?_, ?_, h.related env.now c⟩
  · rw [hredis 0]
    rfl
  · exact h.single env.now _ (isMembersKey_membersKey c)

theorem represents_empty (h : ∀ e ∈ redis, isOtherKey e.1 = true) : Represents redis ∅ := by
  have hnot : ∀ e ∈ redis, isMembersKey e.1 = false :=
    fun e he => not_membersKey_of_other (h e he)
  have hnames : ∀ key ∈ redis.names, isMembersKey key = false := by
    intro key hkey
    obtain ⟨e, he, rfl⟩ := List.mem_map.mp hkey
    exact hnot e he
  constructor
  · exact holdsSets_of_none hnot
  · rw [List.filter_eq_nil_iff.mpr fun key hkey => by simp [hnames key hkey]]
    exact List.nodup_nil
  · exact fun key hkey hmembersKey => nomatch hmembersKey.symm.trans (hnames key hkey)
  · intro now key hkey
    have hnone : redis.get now key = none := by
      rw [← Option.not_isSome_iff_eq_none, Option.isSome_iff_exists]
      rintro ⟨v, hv⟩
      exact nomatch hkey.symm.trans (hnames key (Keyspace.mem_names_of_get hv))
    rw [membersAt_none hnone]
    exact List.nodup_nil
  · intro now c u
    rw [membersAt_of_none hnot]
    exact iff_of_false List.not_mem_nil fun h => h

/-- However the calls follow each other, and whatever other keys there are, the service answers with
the relation that the calls come to. -/
theorem directory_exact (s : Server) (hothers : ∀ e ∈ s.redis, isOtherKey e.1 = true)
    (calls : List (Env × PresenceCall)) (hcalls : ∀ i ∈ calls, Proper i) (env : Env)
    (hredis : ∀ site, env.redisFails site = false) :
    Answers env (run step s calls) (run relate ∅ calls) := by
  have hafter : Represents (run step s calls).redis (run relate ∅ calls) := by
    apply Along.simulates (R := fun (s : Server) R => Represents s.redis R)
      (P := fun _ i => Proper i)
    · exact fun s R i h hi => step_represents h hi
    · exact along_input_iff.mpr hcalls
    · exact represents_empty hothers
  exact ⟨hafter.userChannels hredis, hafter.channelMembers hredis⟩

/-- A user joins two channels and leaves one of them, and something else that is no channel. -/
def twoChannels : List PresenceCall :=
  [.addChannelMember (Uuid.toText 1) "alice", .addChannelMember (Uuid.toText 2) "alice",
    .putOther "invite:abc" (.text "") none, .removeChannelMember ":members" "alice",
    .removeChannelMember (Uuid.toText 1) "alice"]

theorem twoChannels_answers :
    let s : Server := { Server.empty with
      redis := [("user:alice:status", ⟨.text "online", some 300000⟩)] }
    let calls := twoChannels.map (sampleEnv 0, ·)
    Answers (sampleEnv 0) (run step s calls) (run relate ∅ calls) := by
  refine directory_exact _ (by decide) _ ?_ _ fun _ => rfl
  intro i hi
  obtain ⟨call, hcall, rfl⟩ := List.mem_map.mp hi
  refine ⟨fun _ => rfl, ?_⟩
  simp only [twoChannels, List.mem_cons, List.not_mem_nil, or_false] at hcall
  rcases hcall with rfl | rfl | rfl | rfl | rfl
  · exact Option.isSome_iff_exists.mpr ⟨1, Uuid.parse_toText 1⟩
  · exact Option.isSome_iff_exists.mpr ⟨2, Uuid.parse_toText 2⟩
  · show isOtherKey "invite:abc" = true
    decide
  · trivial
  · trivial

end PresenceCall

end VoxLink
