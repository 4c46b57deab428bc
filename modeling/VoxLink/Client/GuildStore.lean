import VoxLink.Client.Stores
import VoxLink.ProofKit.Pools

/-! `useGuildStore` and the callbacks of `useGuilds` and `ChannelPage` that change it: whether the
current channel is one of the current guild, and which of several selections of a guild is the one
that stays. -/

namespace VoxLink

open ProofKit

namespace Client

structure CategoryItem where
  id : String
  channels : Option (List ChannelItem)
deriving DecidableEq, Repr

/-- A guild as the store keeps it. The list of guilds comes without categories. -/
structure GuildItem where
  id : String
  name : String
  categories : Option (List CategoryItem)
deriving DecidableEq, Repr

/-- `categories?.flatMap(c => c.channels ?? [])` -/
def GuildItem.channels (g : GuildItem) : List ChannelItem :=
  (g.categories.getD []).flatMap fun c => c.channels.getD []

/-- `{ ...g, ...updates }`, where `updates` is an answer of the API. -/
def GuildItem.merge (updates g : GuildItem) : GuildItem :=
  { updates with categories := updates.categories.or g.categories }

structure GuildStore where
  guilds : List GuildItem
  currentGuild : Option GuildItem
  currentChannel : Option ChannelItem
  isLoading : Bool
  error : Option String
deriving DecidableEq, Repr

/-- What the callbacks do to the store: a request is made, or its answer arrives. -/
inductive GuildInput where
  | loadGuilds
  | guildsLoaded (answer : Except String (List GuildItem))
  | selectGuild (guildId : String)
  | guildSelected (guildId : String) (answer : Option GuildItem)
  | guildCreated (guild : GuildItem)
  | selectChannel (channelId : String)
  | leaveGuild (guildId : String)

namespace GuildStore

variable (s : GuildStore)

def initial : GuildStore := ⟨[], none, none, false, none⟩

def setGuilds (guilds : List GuildItem) : GuildStore := { s with guilds }

def addGuild (guild : GuildItem) : GuildStore := { s with guilds := s.guilds ++ [guild] }

def updateGuild (guildId : String) (updates : GuildItem) : GuildStore :=
  let update (g : GuildItem) := if g.id = guildId then updates.merge g else g
  { s with guilds := s.guilds.map update, currentGuild := s.currentGuild.map update }

def removeGuild (guildId : String) : GuildStore :=
  { s with
    guilds := s.guilds.filter (·.id ≠ guildId)
    currentGuild := s.currentGuild.filter (·.id ≠ guildId) }

def setCurrentGuild (guild : Option GuildItem) : GuildStore :=
  { s with currentGuild := guild, currentChannel := none }

def setCurrentChannel (channel : Option ChannelItem) : GuildStore :=
  { s with currentChannel := channel }

def setLoading (isLoading : Bool) : GuildStore := { s with isLoading }

def setError (error : Option String) : GuildStore := { s with error }

/-- A callback runs up to its request, or from the answer to its end. -/
def next : GuildInput → GuildStore
  | .loadGuilds => s.setLoading true
  | .guildsLoaded (.ok guilds) => (s.setGuilds guilds).setLoading false
  | .guildsLoaded (.error message) => (s.setError (some message)).setLoading false
  | .selectGuild _ => s.setLoading true
  | .guildSelected guildId (some guild) =>
    ((s.updateGuild guildId guild).setCurrentGuild (some guild)).setLoading false
  | .guildSelected _ none => s.setLoading false
  | .guildCreated guild => s.addGuild guild
  -- the effect of `ChannelPage`
  | .selectChannel channelId =>
    match s.currentGuild.bind fun g => g.channels.find? (·.id = channelId) with
    | some channel => s.setCurrentChannel (some channel)
    | none => s
  | .leaveGuild guildId => s.removeGuild guildId

def step (s : GuildStore) (i : GuildInput) : Unit × GuildStore := ((), s.next i)

/-! ### The current channel -/

/-- The current channel is in a category of the current guild. -/
def Coherent : Prop :=
  ∀ channel, s.currentChannel = some channel →
    ∃ guild, s.currentGuild = some guild ∧ channel.id ∈ guild.channels.map (·.id)

/-- The current guild is left while one of its channels is selected. -/
def strands : GuildInput → Bool
  | .leaveGuild guildId => s.currentGuild.any (·.id = guildId) && s.currentChannel.isSome
  | _ => false

variable {s} {s' : GuildStore}

theorem Coherent.congr (h : s.Coherent) (hguild : s'.currentGuild = s.currentGuild)
    (hchannel : s'.currentChannel = s.currentChannel) : s'.Coherent := by
  intro channel hsome
  rw [hguild]
  exact h channel (hchannel ▸ hsome)

theorem removeGuild_coherent_iff (h : s.Coherent) (guildId : String) :
    (s.removeGuild guildId).Coherent ↔ s.strands (.leaveGuild guildId) = false := by
  cases hchannel : s.currentChannel with
  | none =>
    have hcoherent : (s.removeGuild guildId).Coherent := fun channel hsome =>
      nomatch hchannel.symm.trans hsome
    simp [strands, hchannel, hcoherent]
  | some channel =>
    obtain ⟨guild, hguild, hmem⟩ := h channel hchannel
    have hcurrent : (s.removeGuild guildId).currentGuild =
        if guild.id = guildId then none else some guild := by
      simp [removeGuild, hguild, Option.filter]
    by_cases hleft : guild.id = guildId
    · rw [if_pos hleft] at hcurrent
      have hstrands : s.strands (.leaveGuild guildId) = true := by
        simp [strands, hguild, hchannel, hleft]
      rw [hstrands]
      refine ⟨fun hcoherent => ?_, nofun⟩
      obtain ⟨_, hsome, -⟩ := hcoherent channel hchannel
      exact nomatch hcurrent.symm.trans hsome
    · rw [if_neg hleft] at hcurrent
      have hstrands : s.strands (.leaveGuild guildId) = false := by
        simp [strands, hguild, hleft]
      exact iff_of_true (h.congr (hcurrent.trans hguild.symm) rfl) hstrands

/-- Every callback but `leaveGuild` keeps the store coherent. -/
theorem coherent_next_iff (h : s.Coherent) (i : GuildInput) :
    (s.next i).Coherent ↔ s.strands i = false := by
  cases i with
  | leaveGuild guildId => exact removeGuild_coherent_iff h guildId
  | guildSelected guildId answer =>
    apply iff_of_true _ rfl
    cases answer with
    | some guild => exact fun channel hsome => nomatch hsome
    | none => exact h.congr rfl rfl
  | guildsLoaded answer =>
    apply iff_of_true _ rfl
    cases answer with
    | ok guilds => exact h.congr rfl rfl
    | error message => exact h.congr rfl rfl
  | selectChannel channelId =>
    apply iff_of_true _ rfl
    simp only [next]
    split
    · rename_i channel hfound
      obtain ⟨guild, hguild, hfind⟩ := Option.bind_eq_some_iff.mp hfound
      rintro _ ⟨⟩
      exact ⟨guild, hguild, List.mem_map_of_mem (List.mem_of_find?_eq_some hfind)⟩
    · exact h
  | loadGuilds | selectGuild _ | guildCreated _ => exact iff_of_true (h.congr rfl rfl) rfl

/-- The store is coherent in every state of a run if and only if nobody leaves the current guild
while a channel is selected. -/
theorem coherent_iff (is : List GuildInput) :
    Along step (fun s i => (s.next i).Coherent) initial is ↔
      Along step (fun s i => s.strands i = false) initial is := by
  have hstart : initial.Coherent := nofun
  have hall : Along step (fun _ _ => True) initial is := along_of_forall (fun _ _ => trivial) _ _
  exact hall.congr_invariant (I := Coherent) (fun s i h _ => coherent_next_iff h i)
    (fun s i _ _ hcoherent => hcoherent) hstart

def guildAnswer (id : String) : GuildItem := ⟨id, id, some [⟨"texts", some [⟨"general", 0⟩]⟩]⟩

/-- A guild is selected, then its channel, and then the guild is left. -/
theorem left_guild_incoherent :
    let is : List GuildInput := [.loadGuilds, .guildsLoaded (.ok [⟨"raid", "raid", none⟩]),
      .selectGuild "raid", .guildSelected "raid" (some (guildAnswer "raid")),
      .selectChannel "general", .leaveGuild "raid"]
    ¬(run step initial is).Coherent := by
  intro is hcoherent
  obtain ⟨guild, hsome, -⟩ := hcoherent ⟨"general", 0⟩ (by decide)
  have hnone : (run step initial is).currentGuild = none := by decide
  exact nomatch hnone.symm.trans hsome

end GuildStore

/-! ### Selections of guilds -/

/-- A call of `selectGuild`, with the guild that the API answers. -/
structure Selection where
  guildId : String
  answer : GuildItem
  answers : answer.id = guildId

inductive SelectionPhase where
  | idle
  | awaiting
  | done
deriving DecidableEq, Repr

/-- The store, and the guild of the most recent call. -/
structure Selecting where
  store : GuildStore
  latest : Option String
deriving DecidableEq, Repr

namespace Selection

/-- The call is made, or its answer arrives. -/
def move : Selection × SelectionPhase → Selecting → (Selection × SelectionPhase) × Selecting
  | (c, .idle), s => ((c, .awaiting), ⟨s.store.next (.selectGuild c.guildId), some c.guildId⟩)
  | (c, .awaiting), s =>
    ((c, .done), { s with store := s.store.next (.guildSelected c.guildId (some c.answer)) })
  | (c, .done), s => ((c, .done), s)

/-- Whether a call still awaits its answer. -/
def awaited (jobs : List (Selection × SelectionPhase)) : Bool := jobs.any (·.2 = .awaiting)

/-- Once no answer is awaited, the current guild is that of the most recent call. -/
def Settled (p : Pool (Selection × SelectionPhase) Selecting) : Prop :=
  awaited p.jobs = false → ∀ guildId, p.state.latest = some guildId →
    p.state.store.currentGuild.map (·.id) = some guildId

/-- The last answer to arrive is for another guild than the most recent call. -/
def overtaken (p : Pool (Selection × SelectionPhase) Selecting) (k : Nat) : Bool :=
  match p.jobs[k]? with
  | some (c, .awaiting) => !awaited (p.others k) && p.state.latest ≠ some c.guildId
  | _ => false

variable {p : Pool (Selection × SelectionPhase) Selecting} {k : Nat}

/-- A call has been made before its answer is awaited. -/
def Called (p : Pool (Selection × SelectionPhase) Selecting) : Prop :=
  awaited p.jobs = true → p.state.latest.isSome = true

theorem turn_called (h : Called p) : Called (p.turn move k).2 := by
  apply turn_keeps _ h
  rintro ⟨c, phase⟩ hk
  rw [turn_some hk]
  cases phase with
  | idle => exact fun _ => rfl
  | awaiting =>
    have hnow : awaited p.jobs = true := by
      rw [awaited, jobs_any _ hk]
      rfl
    exact fun _ => h hnow
  | done =>
    intro hnow
    rw [awaited, set_any _ _ hk] at hnow
    apply h
    rw [awaited, jobs_any _ hk]
    exact hnow

theorem settled_turn_iff (hcalled : Called p) (h : Settled p) :
    Settled (p.turn move k).2 ↔ overtaken p k = false := by
  cases hk : p.jobs[k]? with
  | none =>
    rw [turn_none hk, overtaken, hk]
    exact iff_of_true h rfl
  | some l =>
    obtain ⟨c, phase⟩ := l
    rw [turn_some hk]
    cases phase with
    | idle =>
      have hawaits : awaited (p.jobs.set k (c, .awaiting)) = true := by
        rw [awaited, set_any _ _ hk]
        rfl
      rw [overtaken, hk]
      refine iff_of_true (fun hnone => ?_) rfl
      exact nomatch hawaits.symm.trans hnone
    | awaiting =>
      have hothers : awaited (p.jobs.set k (c, .done)) = awaited (p.others k) := by
        rw [awaited, set_any _ _ hk]
        rfl
      have hsome : p.state.latest.isSome = true := hcalled (by
        rw [awaited, jobs_any _ hk]
        rfl)
      obtain ⟨guildId, hlatest⟩ := Option.isSome_iff_exists.mp hsome
      have hcurrent : (move (c, .awaiting) p.state).2.store.currentGuild.map (·.id) =
          some c.guildId := congrArg some c.answers
      unfold Settled
      simp only [overtaken, hk, Bool.and_eq_false_iff, Bool.not_eq_false', decide_eq_false_iff_not,
        not_not, hlatest, Option.some.injEq]
      show (awaited (p.jobs.set k (c, .done)) = false →
        ∀ id, p.state.latest = some id → _ = some id) ↔ _
      rw [hothers, hcurrent, hlatest]
      cases awaited (p.others k) with
      | true => simp
      | false => simp [eq_comm]
    | done =>
      have hsame : awaited (p.jobs.set k (c, .done)) = awaited p.jobs := by
        rw [awaited, awaited, set_any _ _ hk, jobs_any _ hk]
      rw [overtaken, hk]
      refine iff_of_true (fun hnone => h ?_) rfl
      exact hsame ▸ hnone

def calls (cs : List Selection) (s : GuildStore) : Pool (Selection × SelectionPhase) Selecting :=
  ⟨cs.map (·, .idle), ⟨s, none⟩⟩

/-- Whenever no answer is awaited the current guild is that of the most recent call, if and only if
each answer that leaves none awaited is for that guild. -/
theorem last_selected_wins_iff (cs : List Selection) (s : GuildStore) (ks : List Nat) :
    Along (Pool.turn move) (fun p k => Settled (p.turn move k).2) (calls cs s) ks ↔
      Along (Pool.turn move) (fun p k => overtaken p k = false) (calls cs s) ks := by
  have hnone : awaited (calls cs s).jobs = false := by
    apply List.any_eq_false.mpr
    intro l hl
    obtain ⟨c, -, rfl⟩ := List.mem_map.mp hl
    exact of_decide_eq_false rfl
  have hcalled : Called (calls cs s) := fun hsome => nomatch hnone.symm.trans hsome
  have hsettled : Settled (calls cs s) := fun _ _ => nofun
  have hall : Along (Pool.turn move) (fun _ _ => True) (calls cs s) ks :=
    along_of_forall (fun _ _ => trivial) _ _
  exact hall.congr_invariant (I := fun p => Called p ∧ Settled p)
    (fun p k h _ => settled_turn_iff h.1 h.2)
    (fun p k h _ hnext => ⟨turn_called h.1, hnext⟩) ⟨hcalled, hsettled⟩

def selectionOf (guildId : String) : Selection := ⟨guildId, GuildStore.guildAnswer guildId, rfl⟩

/-- Two guilds are selected one after the other, and the answers arrive the other way round. -/
theorem slow_answer_wins :
    let p := run (Pool.turn move)
      (calls [selectionOf "raid", selectionOf "friends"] GuildStore.initial) [0, 1, 1, 0]
    (∀ l ∈ p.jobs, l.2 = .done) ∧ p.state.latest = some "friends" ∧
      p.state.store.currentGuild.map (·.id) = some "raid" := by
  decide

end Selection

end Client

end VoxLink
