import VoxLink.Guilds.Invariants

/-! What a member sees of the channels of a guild. They are read category by category, so a channel
without a category is in no answer. -/

namespace VoxLink

open ProofKit Prog GuildsService

variable {X : Externals} {env : Env} {user : Profile} {db : Database} {g : Uuid}

/-- The channels in an answer. -/
def shownChannels (categories : List (ChannelCategory × List Channel)) : List Channel :=
  categories.flatMap (·.2)

/-- The answer shows every channel of the guild once, and nothing else. -/
def ShowsAll (db : Database) (g : Uuid) (categories : List (ChannelCategory × List Channel)) :
    Prop :=
  (shownChannels categories).Perm (db.channels.filter (·.guildId = some g)) ∧
    ((shownChannels categories).map (·.id)).Nodup

/-- Every channel of the guild is in a category. -/
def AllCategorised (db : Database) (g : Uuid) : Prop :=
  ∀ c ∈ db.channels, c.guildId = some g → c.categoryId ≠ none

instance (db : Database) (g : Uuid) : Decidable (AllCategorised db g) :=
  inferInstanceAs (Decidable (∀ c ∈ db.channels, _))

/-- A channel is in a category of the guild exactly when it is a channel of the guild that has a
category. -/
theorem inCategory_iff (hcons : Consistent db) {c : Channel} (hc : c ∈ db.channels) :
    (∃ k ∈ (db.channelCategories.filter (·.guildId = g)).map (·.id), c.categoryId = some k) ↔
      c.guildId = some g ∧ c.categoryId ≠ none := by
  constructor
  · intro ⟨k, hk, hck⟩
    obtain ⟨x, hx, rfl⟩ := List.mem_map.mp hk
    obtain ⟨hx, hxg⟩ := List.mem_filter.mp hx
    obtain ⟨y, hy, hyx, hguild⟩ := hcons.refs.place c hc x.id hck
    obtain rfl := Rows.eq_of_nodup hcons.ids.categories hy hx hyx
    simp only [decide_eq_true_eq] at hxg
    exact ⟨hxg ▸ hguild, by simp [hck]⟩
  · intro ⟨hguild, hsome⟩
    obtain ⟨k, hck⟩ := Option.ne_none_iff_exists'.mp hsome
    obtain ⟨x, hx, hxk, hxg⟩ := hcons.refs.place c hc k hck
    have hxg : x.guildId = g := Option.some.inj (hxg.symm.trans hguild)
    exact ⟨k, List.mem_map.mpr ⟨x, List.mem_filter.mpr ⟨hx, by simpa using hxg⟩, hxk⟩, hck⟩

/-- The answer shows the channels of the guild that have a category. -/
theorem shownChannels_perm (hcons : Consistent db) :
    (shownChannels (db.structureOf g)).Perm
      (db.channels.filter fun c => c.guildId = some g ∧ c.categoryId ≠ none) := by
  let keys := (db.channelCategories.filter (·.guildId = g)).map (·.id)
  have hkeys : keys.Nodup := hcons.ids.categories.sublist (List.filter_sublist.map _)
  have hgroups : shownChannels (db.structureOf g) =
      (db.categoriesOf g).flatMap fun c => db.channelsOf c := by
    simp only [shownChannels, Database.structureOf, List.flatMap_map]
  have hsorted : ((db.categoriesOf g).flatMap fun c => db.channelsOf c).Perm
      (keys.flatMap fun k => db.channels.filter (·.categoryId = some k)) := by
    rw [List.flatMap_map]
    exact (List.perm_insertionSort _ _).flatMap fun c _ => List.perm_insertionSort _ _
  rw [hgroups]
  refine (hsorted.trans (Rows.flatMap_filter_perm hkeys)).trans (.of_eq ?_)
  refine List.filter_congr fun c hc => ?_
  rw [Bool.eq_iff_iff, List.any_eq_true]
  simp only [decide_eq_true_eq]
  exact inCategory_iff hcons hc

/-- The answer is complete exactly when every channel of the guild has a category. -/
theorem showsAll_iff (hcons : Consistent db) :
    ShowsAll db g (db.structureOf g) ↔ AllCategorised db g := by
  have hperm := shownChannels_perm (g := g) hcons
  constructor
  · intro ⟨hall, _⟩ c hc hguild
    have hmem : c ∈ db.channels.filter fun c => c.guildId = some g ∧ c.categoryId ≠ none :=
      (hall.symm.trans hperm).subset (List.mem_filter.mpr ⟨hc, by simpa using hguild⟩)
    have := (List.mem_filter.mp hmem).2
    simp only [decide_eq_true_eq] at this
    exact this.2
  · intro hcat
    constructor
    · refine hperm.trans (.of_eq (List.filter_congr fun c hc => ?_))
      rw [Bool.eq_iff_iff]
      simp only [decide_eq_true_eq]
      exact ⟨fun h => h.1, fun h => ⟨h, hcat c hc h⟩⟩
    · refine ((hperm.map _).nodup_iff).mpr ?_
      exact hcons.ids.channels.sublist (List.filter_sublist.map _)

/-- In every reachable state, the answers of `getChannels` and `findOne` show every channel of the
guild exactly when each has a category. -/
theorem channels_shown_iff {s : Server} (hs : Reached X s) (env : Env) (user : Profile)
    {text : String} (htext : Uuid.parse text = some g) :
    (∀ categories, (getChannels env text user).outcome s.db = .ok categories →
      (ShowsAll s.db g categories ↔ AllCategorised s.db g)) ∧
    (∀ view, (findOne env text user).outcome s.db = .ok view →
      (ShowsAll s.db g view.categories ↔ AllCategorised s.db g)) := by
  constructor
  · intro categories hout
    rw [((getChannels_wp htext).of_returned hout).2]
    exact showsAll_iff hs.consistent
  · intro view hout
    rw [((findOne_wp htext).of_returned hout).2]
    exact showsAll_iff hs.consistent

/-- A new guild shows its four channels. -/
theorem guildRun_channels_shown :
    ∃ categories,
      (getChannels (sampleEnv 4) sampleGuild.toText alice).outcome
        (run (serve sampleExternals) Server.empty (guildRun .absent)).db = .ok categories ∧
      ShowsAll (run (serve sampleExternals) Server.empty (guildRun .absent)).db sampleGuild
        categories := by
  have hs : Reached sampleExternals (run (serve sampleExternals) Server.empty (guildRun .absent)) :=
    ⟨_, by decide +kernel, rfl⟩
  have hout : (getChannels (sampleEnv 4) sampleGuild.toText alice).outcome
      (run (serve sampleExternals) Server.empty (guildRun .absent)).db =
        .ok ((run (serve sampleExternals) Server.empty (guildRun .absent)).db.structureOf
          sampleGuild) := by decide +kernel
  have hshown := channels_shown_iff hs (sampleEnv 4) alice (Uuid.parse_toText sampleGuild)
  exact ⟨_, hout, (hshown.1 _ hout).mpr (by decide +kernel)⟩

/-- Alice makes a channel without a category. -/
def strayServer : Server :=
  run (serve sampleExternals) Server.empty (guildRun .absent ++ [byAlice 4 (.createChannel
    sampleGuild.toText ⟨"news", .absent, .absent, .absent, .absent⟩)])

theorem stray_not_shown :
    Reached sampleExternals strayServer ∧
      (getChannels (sampleEnv 5) sampleGuild.toText alice).outcome strayServer.db =
        .ok (strayServer.db.structureOf sampleGuild) ∧
      ¬ShowsAll strayServer.db sampleGuild (strayServer.db.structureOf sampleGuild) := by
  have hs : Reached sampleExternals strayServer := ⟨_, by decide +kernel, rfl⟩
  refine ⟨hs, by decide +kernel, fun h => ?_⟩
  exact absurd ((showsAll_iff hs.consistent).mp h) (by decide +kernel)

end VoxLink
