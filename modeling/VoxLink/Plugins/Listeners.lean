import VoxLink.Backend.Plugins
import VoxLink.ProofKit.Runs

/-! Each event of an enabled plugin has one listener, and a disabled plugin has none. The registry
and the emitter come apart where a plugin is loaded that is listening already, where its file is not
the one that `enablePlugin` loads or says that it is not enabled, where a file lists an event twice,
and where other parts of the application listen. -/

namespace VoxLink

open ProofKit

/-- What the files of the directory export, in the order they are loaded in. -/
def PluginDir.exports (dir : PluginDir) : List PluginExport := dir.files.filterMap (·.2)

/-- What the last file of plugin `name` exports. -/
def PluginDir.last (dir : PluginDir) (name : String) : Option PluginExport :=
  (dir.exports.filter (·.name = name)).getLast?

/-- How often the files of plugin `name` that are enabled list an event. -/
def PluginDir.listings (dir : PluginDir) (name eventType : String) : Nat :=
  ((dir.exports.filter fun d => d.name = name && d.toPlugin.enabled).flatMap
    (·.toPlugin.events)).count eventType

/-- The files of a plugin list each event of the last one once, or not at all where the last one
says that it is not enabled. -/
def PluginDir.ListsOnce (dir : PluginDir) : Prop :=
  ∀ d ∈ dir.exports, dir.last d.name = some d → ∀ e ∈ d.toPlugin.events,
    dir.listings d.name e = if d.toPlugin.enabled then 1 else 0

namespace PluginManager

variable {dir : PluginDir} {m : PluginManager} {name filename : String} {d : PluginExport}
  {p q : Plugin} {plugins done rest : List Plugin} {listeners : List Listener}

/-! ### The registry -/

theorem mem_setPlugin : q ∈ setPlugin p plugins ↔ q = p ∨ q ∈ plugins ∧ q.name ≠ p.name := by
  unfold setPlugin
  split
  · rename_i hany
    simp only [Rows.mem_modify, decide_eq_true_eq]
    constructor
    · rintro ⟨a, ha, rfl⟩
      split
      · exact .inl rfl
      · exact .inr ⟨ha, ‹_›⟩
    · rintro (rfl | ⟨hq, hne⟩)
      · obtain ⟨a, ha, hname⟩ := List.any_eq_true.mp hany
        exact ⟨a, ha, if_pos (of_decide_eq_true hname)⟩
      · exact ⟨q, hq, if_neg hne⟩
  · rename_i hany
    have hnone : ∀ a ∈ plugins, a.name ≠ p.name := by simpa using hany
    rw [List.mem_append, List.mem_singleton]
    constructor
    · rintro (hq | rfl)
      · exact .inr ⟨hq, hnone q hq⟩
      · exact .inl rfl
    · rintro (rfl | ⟨hq, -⟩)
      · exact .inr rfl
      · exact .inl hq

/-- A plugin that is set anew keeps its place. -/
theorem setPlugin_middle (hnodup : ((done ++ q :: rest).map (·.name)).Nodup)
    (hname : q.name = p.name) : setPlugin p (done ++ q :: rest) = done ++ p :: rest := by
  have hany : (done ++ q :: rest).any (·.name = p.name) = true :=
    List.any_eq_true.mpr ⟨q, by simp, decide_eq_true hname⟩
  rw [List.map_append, List.map_cons, List.nodup_append] at hnodup
  obtain ⟨-, hrest, hdone⟩ := hnodup
  have hkept : ∀ {l : List Plugin}, (∀ a ∈ l, a.name ≠ p.name) →
      Rows.modify (·.name = p.name) (fun _ => p) l = l := by
    intro l hl
    refine Rows.modify_eq_self_iff.mpr fun a ha hp => ?_
    exact absurd (of_decide_eq_true hp) (hl a ha)
  rw [setPlugin, if_pos hany, Rows.modify, List.map_append, List.map_cons]
  rw [if_pos (by simpa using hname)]
  have hleft := hkept (l := done) ?_
  have hright := hkept (l := rest) ?_
  · rw [Rows.modify] at hleft hright
    rw [hleft, hright]
  · intro a ha heq
    refine (List.nodup_cons.mp hrest).1 ?_
    rw [hname, ← heq]
    exact List.mem_map_of_mem ha
  · intro a ha heq
    exact hdone _ (List.mem_map_of_mem ha) _ List.mem_cons_self (heq.trans hname.symm)

theorem nodup_setPlugin (h : (plugins.map (·.name)).Nodup) :
    ((setPlugin p plugins).map (·.name)).Nodup := by
  unfold setPlugin
  split
  · exact Rows.nodup_modify h fun a ha => (of_decide_eq_true ha).symm
  · rename_i hany
    refine Rows.nodup_append_of_fresh h (List.nodup_singleton _) ?_
    intro a ha hmem
    obtain rfl := List.mem_singleton.mp ha
    obtain ⟨b, hb, heq⟩ := List.mem_map.mp hmem
    exact hany (List.any_eq_true.mpr ⟨b, hb, decide_eq_true heq⟩)

theorem mem_setEnabled {enabled : Bool} : q ∈ setEnabled name enabled plugins ↔
    ∃ a ∈ plugins, (if a.name = name then { a with enabled } else a) = q := by
  simp [setEnabled, Rows.mem_modify]

theorem map_name_setEnabled {enabled : Bool} :
    (setEnabled name enabled plugins).map (·.name) = plugins.map (·.name) :=
  Rows.map_modify fun _ _ => rfl

/-! ### Loading a file -/

/-- The listeners that loading a file registers. -/
def listenersOf (d : PluginExport) : List Listener :=
  if d.toPlugin.enabled then d.toPlugin.events.map (.plugin d.name) else []

theorem loadExport_some : m.loadExport (some d) =
    ⟨setPlugin d.toPlugin m.plugins, m.listeners ++ listenersOf d⟩ := by
  simp only [loadExport, listenersOf, registerPluginEvents]
  cases d.toPlugin.enabled with
  | false => simp
  | true =>
    cases hevents : d.toPlugin.events with
    | nil => simp
    | cons e es =>
      simp only [List.length_cons, Nat.zero_lt_succ, decide_true, Bool.and_true, if_true]
      rfl

theorem loadPlugin_of_none (h : dir.require filename = none) :
    loadPlugin dir filename m = m := by
  rw [loadPlugin, h]
  rfl

theorem loadPlugin_of_some (h : dir.require filename = some d) : loadPlugin dir filename m =
    ⟨setPlugin d.toPlugin m.plugins, m.listeners ++ listenersOf d⟩ := by
  rw [loadPlugin, h, loadExport_some]

theorem require_of_mem {f : String × Option PluginExport} (hf : f ∈ dir.files) :
    dir.require f.1 = f.2 := by
  have hfound : dir.files.find? (·.1 = f.1) = some f := by
    cases hfind : dir.files.find? (·.1 = f.1) with
    | none =>
      have := List.find?_eq_none.mp hfind f hf
      simp at this
    | some g =>
      have hname : g.1 = f.1 := by simpa using List.find?_some hfind
      rw [Rows.eq_of_nodup dir.distinct (List.mem_of_find?_eq_some hfind) hf hname]
  rw [PluginDir.require, hfound]
  rfl

theorem js_ne_json (a b : String) : a ++ ".js" ≠ b ++ ".json" := by
  intro heq
  have hlast := congrArg (fun s => s.toList.getLast?) heq
  simp at hlast

/-- The file that `enablePlugin` and `disablePlugin` load sets the key they load it for. -/
theorem name_of_require (h : dir.require (name ++ ".js") = some d) : d.name = name := by
  obtain ⟨f, hfind, hd⟩ := Option.bind_eq_some_iff.mp h
  have hname : f.1 = name ++ ".js" := by simpa using List.find?_some hfind
  rcases dir.named f (List.mem_of_find?_eq_some hfind) d hd with hjs | hjson
  · have heq := congrArg String.toList (hjs.symm.trans hname)
    rw [String.toList_append, String.toList_append] at heq
    exact String.ext_iff.mpr (List.append_cancel_right heq)
  · exact absurd (hname.symm.trans hjson) (js_ne_json _ _)

theorem count_listenersOf (eventType : String) :
    (listenersOf d).count (.plugin name eventType) =
      if d.name = name ∧ d.toPlugin.enabled then d.toPlugin.events.count eventType else 0 := by
  have hinj : Function.Injective (Listener.plugin d.name) := by
    intro a b h
    cases h
    rfl
  unfold listenersOf
  by_cases henabled : d.toPlugin.enabled <;> by_cases hname : d.name = name
  · obtain rfl := hname
    rw [if_pos henabled, if_pos ⟨rfl, henabled⟩, List.count_map_of_injective _ _ hinj]
  · rw [if_pos henabled, if_neg fun h => hname h.1, List.count_eq_zero, List.mem_map]
    rintro ⟨e, -, heq⟩
    cases heq
    exact hname rfl
  · rw [if_neg henabled, if_neg fun h => henabled h.2]
    rfl
  · rw [if_neg henabled, if_neg fun h => henabled h.2]
    rfl

/-! ### What the registry says of the emitter -/

/-- Each event of an enabled plugin has one listener of it, and of a disabled one none. -/
def Agrees (m : PluginManager) : Prop :=
  ∀ p ∈ m.plugins, ∀ e ∈ p.events,
    m.listeners.count (.plugin p.name e) = if p.enabled then 1 else 0

instance (m : PluginManager) : Decidable (Agrees m) :=
  inferInstanceAs (Decidable (∀ p ∈ m.plugins, ∀ e ∈ p.events, _))

/-- The listeners of other parts of the application. -/
def others (m : PluginManager) : List Listener := m.listeners.filter (·.isOther)

theorem others_listenersOf : (listenersOf d).filter (·.isOther) = [] := by
  unfold listenersOf
  split
  · simp [List.filter_eq_nil_iff, Listener.isOther]
  · rfl

/-! ### `loadPlugins` -/

/-- Loading a list of exports, one after the other. -/
theorem foldl_loadPlugin {files : List (String × Option PluginExport)}
    (hfiles : ∀ f ∈ files, f ∈ dir.files) (m : PluginManager) :
    ((files.map (·.1)).filter isPluginFile).foldl (fun m file => loadPlugin dir file m) m =
      ⟨(files.filterMap (·.2)).foldl (fun ps d => setPlugin d.toPlugin ps) m.plugins,
        m.listeners ++ (files.filterMap (·.2)).flatMap listenersOf⟩ := by
  induction files generalizing m with
  | nil => simp
  | cons f files ih =>
    have hrest := ih fun g hg => hfiles g (List.mem_cons_of_mem _ hg)
    have hf := hfiles f List.mem_cons_self
    have hrequire := require_of_mem hf
    cases hd : f.2 with
    | none =>
      rw [List.filterMap_cons_none hd, List.map_cons, List.filter_cons]
      split
      · rw [List.foldl_cons, loadPlugin_of_none (hrequire.trans hd)]
        exact hrest m
      · exact hrest m
    | some d =>
      have hplugin : isPluginFile f.1 = true := by
        rcases dir.named f hf d hd with h | h <;> simp [isPluginFile, h]
      rw [List.filterMap_cons_some hd, List.map_cons, List.filter_cons, if_pos hplugin,
        List.foldl_cons, loadPlugin_of_some (hrequire.trans hd), hrest, List.foldl_cons,
        List.flatMap_cons, List.append_assoc]

theorem loaded_eq (dir : PluginDir) (others : List (Nat × String)) : loaded dir others =
    ⟨dir.exports.foldl (fun ps d => setPlugin d.toPlugin ps) [],
      others.map (fun o => .other o.1 o.2) ++ dir.exports.flatMap listenersOf⟩ :=
  foldl_loadPlugin (fun _ h => h) _

theorem mem_foldl_setPlugin {exports : List PluginExport} :
    q ∈ exports.foldl (fun ps d => setPlugin d.toPlugin ps) [] ↔
      ∃ d, (exports.filter (·.name = q.name)).getLast? = some d ∧ d.toPlugin = q := by
  induction exports using List.reverseRecOn with
  | nil => simp
  | append_singleton exports d ih =>
    rw [List.foldl_append, List.foldl_cons, List.foldl_nil, mem_setPlugin, ih,
      List.filter_append]
    by_cases hname : d.name = q.name
    · simp [hname, eq_comm]
    · have hne : q ≠ d.toPlugin := by
        rintro rfl
        exact hname rfl
      simp [hname, hne, Ne.symm hname]

theorem nodup_loaded (dir : PluginDir) (others : List (Nat × String)) :
    ((loaded dir others).plugins.map (·.name)).Nodup := by
  rw [loaded_eq]
  generalize dir.exports = exports
  induction exports using List.reverseRecOn with
  | nil => exact List.nodup_nil
  | append_singleton exports d ih =>
    rw [List.foldl_append]
    exact nodup_setPlugin ih

theorem others_loaded (dir : PluginDir) (others : List (Nat × String)) :
    (loaded dir others).others = others.map fun o => .other o.1 o.2 := by
  have hothers : (others.map fun o => Listener.other o.1 o.2).filter (·.isOther) =
      others.map fun o => .other o.1 o.2 := by
    rw [List.filter_eq_self]
    intro l hl
    obtain ⟨o, -, rfl⟩ := List.mem_map.mp hl
    rfl
  have hnone : (dir.exports.flatMap listenersOf).filter (·.isOther) = [] := by
    rw [List.filter_flatMap, List.flatMap_eq_nil_iff]
    exact fun d _ => others_listenersOf
  rw [loaded_eq, PluginManager.others, List.filter_append, hothers, hnone, List.append_nil]

theorem count_loaded (dir : PluginDir) (others : List (Nat × String)) (name eventType : String) :
    (loaded dir others).listeners.count (.plugin name eventType) =
      dir.listings name eventType := by
  have hothers :
      (others.map fun o => Listener.other o.1 o.2).count (.plugin name eventType) = 0 := by
    simp [List.count_eq_zero]
  rw [loaded_eq, List.count_append, hothers, Nat.zero_add, PluginDir.listings]
  induction dir.exports with
  | nil => rfl
  | cons d exports ih =>
    rw [List.flatMap_cons, List.count_append, ih, count_listenersOf, List.filter_cons]
    by_cases h : d.name = name ∧ d.toPlugin.enabled
    · rw [if_pos h, if_pos (by simpa using h), List.flatMap_cons, List.count_append]
    · rw [if_neg h, if_neg (by simpa using h), Nat.zero_add]

theorem agrees_loaded_iff (dir : PluginDir) (others : List (Nat × String)) :
    Agrees (loaded dir others) ↔ dir.ListsOnce := by
  have hmem : ∀ p, p ∈ (loaded dir others).plugins ↔
      ∃ d, dir.last p.name = some d ∧ d.toPlugin = p := by
    intro p
    rw [loaded_eq]
    exact mem_foldl_setPlugin
  constructor
  · intro h d _ hlast e he
    rw [← count_loaded dir others]
    exact h d.toPlugin ((hmem _).mpr ⟨d, hlast, rfl⟩) e he
  · intro h p hp e he
    obtain ⟨d, hlast, rfl⟩ := (hmem p).mp hp
    have hd : d ∈ dir.exports := List.mem_of_mem_filter (List.mem_of_getLast? hlast)
    rw [count_loaded]
    exact h d hd hlast e he

/-! ### `enablePlugin` -/

theorem getPlugin_eq_some (hnodup : (m.plugins.map (·.name)).Nodup) :
    m.getPlugin name = some p ↔ p ∈ m.plugins ∧ p.name = name := by
  constructor
  · intro h
    exact ⟨List.mem_of_find?_eq_some h, by simpa using List.find?_some h⟩
  · rintro ⟨hp, rfl⟩
    cases hfind : m.getPlugin p.name with
    | none =>
      have := List.find?_eq_none.mp hfind p hp
      simp at this
    | some q =>
      have hname : q.name = p.name := by simpa using List.find?_some hfind
      rw [Rows.eq_of_nodup hnodup (List.mem_of_find?_eq_some hfind) hp hname]

/-- Where enabling the plugin leaves one listener for each of its events: its file is there, does
not say that the plugin is not enabled and lists no event twice, and the plugin does not listen to
any of them; or there is nothing to register. -/
def EnableOk (dir : PluginDir) (m : PluginManager) (p : Plugin) : Prop :=
  match dir.require (p.name ++ ".js") with
  | some d => d.toPlugin.enabled ∧ d.toPlugin.events.Nodup ∧
      ∀ e ∈ d.toPlugin.events, .plugin p.name e ∉ m.listeners
  | none => p.enabled ∨ p.events = []

/-- What a call of `enablePlugin` has to do. -/
def Enables (m : PluginManager) (name : String) (out : Bool × PluginManager) : Prop :=
  Agrees out.2 ∧ (out.1 = true → ∃ p, out.2.getPlugin name = some p ∧ p.enabled = true) ∧
    out.2.others = m.others

theorem agrees_load_iff (hrest : ∀ q ∈ m.plugins, q.name ≠ d.name → ∀ e ∈ q.events,
      m.listeners.count (.plugin q.name e) = if q.enabled then 1 else 0) :
    Agrees ⟨setPlugin d.toPlugin m.plugins, m.listeners ++ listenersOf d⟩ ↔
      ∀ e ∈ d.toPlugin.events, m.listeners.count (.plugin d.name e) +
        (if d.toPlugin.enabled then d.toPlugin.events.count e else 0) =
          if d.toPlugin.enabled then 1 else 0 := by
  constructor
  · intro h e he
    have := h d.toPlugin (mem_setPlugin.mpr (.inl rfl)) e he
    rw [List.count_append, d.toPlugin_name, count_listenersOf] at this
    simpa only [true_and] using this
  · intro h q hq e he
    rw [List.count_append, count_listenersOf]
    rcases mem_setPlugin.mp hq with rfl | ⟨hq, hne⟩
    · simpa only [PluginExport.toPlugin_name, true_and] using h e he
    · rw [if_neg fun h => hne h.1.symm, Nat.add_zero]
      exact hrest q hq hne e he

/-- Events that are each listed once and not listened to are listened to once when they are
registered. -/
theorem once_iff {events : List String} {c : String → Nat} :
    (∀ e ∈ events, c e + events.count e = 1) ↔ events.Nodup ∧ ∀ e ∈ events, c e = 0 := by
  rw [List.nodup_iff_count_eq_one]
  constructor
  · intro h
    refine ⟨fun e he => ?_, fun e he => ?_⟩
    · have := List.count_pos_iff.mpr he
      have := h e he
      omega
    · have := List.count_pos_iff.mpr he
      have := h e he
      omega
  · rintro ⟨hnodup, hnone⟩ e he
    rw [hnodup e he, hnone e he]

theorem enablePlugin_iff (hnodup : (m.plugins.map (·.name)).Nodup) (hagrees : Agrees m) :
    Enables m name (m.enablePlugin dir name) ↔
      ∀ p, m.getPlugin name = some p → EnableOk dir m p := by
  cases hget : m.getPlugin name with
  | none =>
    simp only [enablePlugin, hget]
    exact ⟨fun _ => nofun, fun _ => ⟨hagrees, nofun, rfl⟩⟩
  | some p =>
    obtain ⟨hp, hname⟩ := (getPlugin_eq_some hnodup).mp hget
    have hnodup' : ((setEnabled name true m.plugins).map (·.name)).Nodup := by
      rwa [map_name_setEnabled]
    have hrest : ∀ q ∈ setEnabled name true m.plugins, q.name ≠ name → ∀ e ∈ q.events,
        m.listeners.count (.plugin q.name e) = if q.enabled then 1 else 0 := by
      intro q hq hne
      obtain ⟨a, ha, rfl⟩ := mem_setEnabled.mp hq
      by_cases haname : a.name = name
      · rw [if_pos haname] at hne
        exact absurd haname hne
      · rw [if_neg haname]
        exact hagrees a ha
    have hp' : { p with enabled := true } ∈ setEnabled name true m.plugins :=
      mem_setEnabled.mpr ⟨p, hp, if_pos hname⟩
    simp only [enablePlugin, hget, Option.some.injEq, forall_eq', EnableOk, hname]
    cases hrequire : dir.require (name ++ ".js") with
    | none =>
      rw [loadPlugin_of_none hrequire]
      constructor
      · rintro ⟨h, -, -⟩
        cases hevents : p.events with
        | nil => exact .inr rfl
        | cons e es =>
          have he : e ∈ p.events := hevents ▸ List.mem_cons_self
          have hafter : m.listeners.count (.plugin p.name e) = 1 := h _ hp' e he
          have hbefore := hagrees p hp e he
          left
          by_contra henabled
          rw [if_neg henabled] at hbefore
          omega
      · intro h
        refine ⟨fun q hq e he => ?_, fun _ => ?_, rfl⟩
        · by_cases hqname : q.name = name
          · obtain rfl := Rows.eq_of_nodup hnodup' hq hp' (hqname.trans hname.symm)
            rcases h with h | h
            · exact (hagrees p hp e he).trans (if_pos h)
            · exact absurd (h ▸ he) List.not_mem_nil
          · exact hrest q hq hqname e he
        · exact ⟨_, (getPlugin_eq_some hnodup').mpr ⟨hp', hname⟩, rfl⟩
    | some d =>
      obtain rfl := name_of_require hrequire
      rw [loadPlugin_of_some hrequire]
      have hfound : getPlugin ⟨setPlugin d.toPlugin (setEnabled d.name true m.plugins),
          m.listeners ++ listenersOf d⟩ d.name = some d.toPlugin :=
        (getPlugin_eq_some (nodup_setPlugin hnodup')).mpr ⟨mem_setPlugin.mpr (.inl rfl), rfl⟩
      have hiff := agrees_load_iff (d := d) (m := ⟨setEnabled d.name true m.plugins, m.listeners⟩)
        hrest
      have hothers : (m.listeners ++ listenersOf d).filter (·.isOther) = m.others := by
        rw [List.filter_append, others_listenersOf, List.append_nil, PluginManager.others]
      constructor
      · rintro ⟨h, henables, -⟩
        obtain ⟨q, hq, henabled⟩ := henables rfl
        obtain rfl := Option.some.inj (hfound.symm.trans hq)
        have honce := hiff.mp h
        simp only [henabled, if_true] at honce
        obtain ⟨hevents, hnone⟩ := once_iff.mp honce
        exact ⟨henabled, hevents, fun e he => List.count_eq_zero.mp (hnone e he)⟩
      · rintro ⟨henabled, hevents, hnone⟩
        refine ⟨hiff.mpr ?_, fun _ => ⟨_, hfound, henabled⟩, hothers⟩
        simp only [henabled, if_true]
        exact once_iff.mpr ⟨hevents, fun e he => List.count_eq_zero.mpr (hnone e he)⟩

/-! ### `disablePlugin` -/

/-- What the loop of `disablePlugin` makes of a plugin. -/
def reloaded (dir : PluginDir) (q : Plugin) : Plugin :=
  if q.enabled then ((dir.require (q.name ++ ".js")).map (·.toPlugin)).getD q else q

/-- The listeners that it registers for the plugin. -/
def relistened (dir : PluginDir) (q : Plugin) : List Listener :=
  if q.enabled then ((dir.require (q.name ++ ".js")).map listenersOf).getD [] else []

@[simp] theorem reloaded_name : (reloaded dir q).name = q.name := by
  unfold reloaded
  split
  · cases hrequire : dir.require (q.name ++ ".js") with
    | none => rfl
    | some d => exact name_of_require hrequire
  · rfl

theorem reloadEnabled_eq (done rest : List Plugin) (listeners : List Listener)
    (hnodup : ((done ++ rest).map (·.name)).Nodup) : reloadEnabled dir
      (rest.map (·.name)) ⟨done ++ rest, listeners⟩ =
        ⟨done ++ rest.map (reloaded dir), listeners ++ rest.flatMap (relistened dir)⟩ := by
  induction rest generalizing done listeners with
  | nil => simp [reloadEnabled]
  | cons q rest ih =>
    have hget : getPlugin ⟨done ++ q :: rest, listeners⟩ q.name = some q :=
      (getPlugin_eq_some hnodup).mpr ⟨by simp, rfl⟩
    have hkeep : ∀ {p : Plugin}, p.name = q.name →
        (((done ++ [p]) ++ rest).map (·.name)).Nodup := by
      intro p hp
      simpa [hp] using hnodup
    simp only [List.map_cons, reloadEnabled, hget]
    by_cases henabled : q.enabled = true
    · rw [if_pos henabled]
      cases hrequire : dir.require (q.name ++ ".js") with
      | none =>
        have hq := ih (done ++ [q]) listeners (hkeep rfl)
        rw [loadPlugin_of_none hrequire]
        simpa [reloaded, relistened, henabled, hrequire] using hq
      | some d =>
        have hname := name_of_require hrequire
        have hset : setPlugin d.toPlugin (done ++ q :: rest) = done ++ d.toPlugin :: rest :=
          setPlugin_middle hnodup hname.symm
        have hq := ih (done ++ [d.toPlugin]) (listeners ++ listenersOf d) (hkeep hname)
        rw [loadPlugin_of_some hrequire, hset]
        simpa [reloaded, relistened, henabled, hrequire] using hq
    · rw [if_neg henabled]
      have hq := ih (done ++ [q]) listeners (hkeep rfl)
      simpa [reloaded, relistened, henabled] using hq

theorem reloadAll_eq (dir : PluginDir) (hnodup : (plugins.map (·.name)).Nodup) :
    reloadEnabled dir (plugins.map (·.name)) ⟨plugins, []⟩ =
      ⟨plugins.map (reloaded dir), plugins.flatMap (relistened dir)⟩ :=
  reloadEnabled_eq [] plugins [] hnodup

/-- Where the loop leaves the plugin as `Agrees` asks: its file is there, and says that it is not
enabled or lists no event twice; or there is nothing to register. -/
def ReloadOk (dir : PluginDir) (q : Plugin) : Prop :=
  match dir.require (q.name ++ ".js") with
  | some d => d.toPlugin.enabled → d.toPlugin.events.Nodup
  | none => q.events = []

/-- Where disabling the plugin leaves what it should: no other part of the application listens, and
the other enabled plugins can be loaded again. -/
def DisableOk (dir : PluginDir) (m : PluginManager) (p : Plugin) : Prop :=
  m.others = [] ∧ ∀ q ∈ m.plugins, q.name ≠ p.name → q.enabled → ReloadOk dir q

/-- What a call of `disablePlugin` has to do. -/
def Disables (m : PluginManager) (name : String) (out : Bool × PluginManager) : Prop :=
  Agrees out.2 ∧ (out.1 = true → ∃ p, out.2.getPlugin name = some p ∧ p.enabled = false) ∧
    out.2.others = m.others

theorem agrees_reloaded_iff (dir : PluginDir) (hnodup : (plugins.map (·.name)).Nodup) :
    Agrees ⟨plugins.map (reloaded dir), plugins.flatMap (relistened dir)⟩ ↔
      ∀ q ∈ plugins, q.enabled → ReloadOk dir q := by
  have hcount : ∀ q ∈ plugins, ∀ e,
      (plugins.flatMap (relistened dir)).count (.plugin q.name e) =
        (relistened dir q).count (.plugin q.name e) := by
    intro q hq e
    refine Rows.count_flatMap hnodup hq fun b hne hmem => hne ?_
    unfold relistened at hmem
    split at hmem
    · cases hrequire : dir.require (b.name ++ ".js") with
      | none => simp [hrequire] at hmem
      | some d =>
        rw [hrequire, Option.map_some, Option.getD_some] at hmem
        have := List.count_pos_iff.mpr hmem
        rw [count_listenersOf] at this
        split at this
        · exact (name_of_require hrequire).symm.trans (‹_ ∧ _›).1
        · omega
    · exact nomatch hmem
  have hiff : ∀ q ∈ plugins, (∀ e ∈ (reloaded dir q).events,
      (plugins.flatMap (relistened dir)).count (.plugin (reloaded dir q).name e) =
        if (reloaded dir q).enabled then 1 else 0) ↔ (q.enabled → ReloadOk dir q) := by
    intro q hq
    simp only [reloaded_name, hcount q hq]
    by_cases henabled : q.enabled = true
    · simp only [henabled, forall_const, ReloadOk, reloaded, relistened, if_true]
      cases hrequire : dir.require (q.name ++ ".js") with
      | none => simp [henabled, List.eq_nil_iff_forall_not_mem]
      | some d =>
        have hname := name_of_require hrequire
        simp only [Option.map_some, Option.getD_some, count_listenersOf, hname, true_and]
        by_cases hd : d.toPlugin.enabled = true
        · simp [hd, List.nodup_iff_count_eq_one]
        · simp [hd]
    · simp [henabled, reloaded, relistened]
  constructor
  · intro h q hq
    exact (hiff q hq).mp (h (reloaded dir q) (List.mem_map_of_mem hq))
  · intro h p hp
    obtain ⟨q, hq, rfl⟩ := List.mem_map.mp hp
    exact (hiff q hq).mpr (h q hq)

theorem disablePlugin_iff (hnodup : (m.plugins.map (·.name)).Nodup) (hagrees : Agrees m) :
    Disables m name (m.disablePlugin dir name) ↔
      ∀ p, m.getPlugin name = some p → DisableOk dir m p := by
  cases hget : m.getPlugin name with
  | none =>
    simp only [disablePlugin, hget]
    exact ⟨fun _ => nofun, fun _ => ⟨hagrees, nofun, rfl⟩⟩
  | some p =>
    obtain ⟨hp, rfl⟩ := (getPlugin_eq_some hnodup).mp hget
    have hnodup' : ((setEnabled p.name false m.plugins).map (·.name)).Nodup := by
      rwa [map_name_setEnabled]
    have hp' : { p with enabled := false } ∈ setEnabled p.name false m.plugins :=
      mem_setEnabled.mpr ⟨p, hp, if_pos rfl⟩
    have hloop := reloadAll_eq dir hnodup'
    rw [map_name_setEnabled] at hloop
    have hfound : getPlugin ⟨(setEnabled p.name false m.plugins).map (reloaded dir),
        (setEnabled p.name false m.plugins).flatMap (relistened dir)⟩ p.name =
          some { p with enabled := false } := by
      refine (getPlugin_eq_some ?_).mpr ⟨List.mem_map.mpr ⟨_, hp', by simp [reloaded]⟩, rfl⟩
      simpa [Function.comp_def] using hnodup'
    have hothers : ((setEnabled p.name false m.plugins).flatMap (relistened dir)).filter
        (·.isOther) = [] := by
      rw [List.filter_flatMap, List.flatMap_eq_nil_iff]
      intro q _
      unfold relistened
      split
      · cases dir.require (q.name ++ ".js") with
        | none => rfl
        | some d => exact others_listenersOf
      · rfl
    have hrest : (∀ q ∈ setEnabled p.name false m.plugins, q.enabled → ReloadOk dir q) ↔
        ∀ q ∈ m.plugins, q.name ≠ p.name → q.enabled → ReloadOk dir q := by
      constructor
      · intro h q hq hne
        exact h q (mem_setEnabled.mpr ⟨q, hq, if_neg hne⟩)
      · intro h q hq
        obtain ⟨a, ha, rfl⟩ := mem_setEnabled.mp hq
        by_cases hname : a.name = p.name
        · rw [if_pos hname]
          exact nofun
        · rw [if_neg hname]
          exact h a ha hname
    have hagree := (agrees_reloaded_iff dir hnodup').trans hrest
    simp only [disablePlugin, hget, hloop, Option.some.injEq, forall_eq']
    constructor
    · rintro ⟨h, -, hkept⟩
      exact ⟨hkept.symm.trans hothers, hagree.mp h⟩
    · rintro ⟨hnone, hreload⟩
      exact ⟨hagree.mpr hreload, fun _ => ⟨_, hfound, rfl⟩, hothers.trans hnone.symm⟩

/-! ### Runs -/

/-- What a call has to do from the state before it. -/
def CallAgrees (dir : PluginDir) (m : PluginManager) : PluginCall → Prop
  | .enable name => Enables m name (m.enablePlugin dir name)
  | .disable name => Disables m name (m.disablePlugin dir name)
  | .listen id eventType => Agrees (m.call dir (.listen id eventType)).2

/-- The calls that do. A name that is not registered is refused, which changes nothing. -/
def CallOk (dir : PluginDir) (m : PluginManager) : PluginCall → Prop
  | .enable name => ∀ p, m.getPlugin name = some p → EnableOk dir m p
  | .disable name => ∀ p, m.getPlugin name = some p → DisableOk dir m p
  | .listen _ _ => True

theorem nodup_loadPlugin (h : (m.plugins.map (·.name)).Nodup) :
    ((loadPlugin dir filename m).plugins.map (·.name)).Nodup := by
  cases hrequire : dir.require filename with
  | none => rwa [loadPlugin_of_none hrequire]
  | some d =>
    rw [loadPlugin_of_some hrequire]
    exact nodup_setPlugin h

theorem nodup_call {c : PluginCall} (h : (m.plugins.map (·.name)).Nodup) :
    (((m.call dir c).2).plugins.map (·.name)).Nodup := by
  cases c with
  | enable name =>
    simp only [call, enablePlugin]
    split
    · exact h
    · exact nodup_loadPlugin (by rwa [map_name_setEnabled])
  | disable name =>
    simp only [call, disablePlugin]
    split
    · exact h
    · have h' : ((setEnabled name false m.plugins).map (·.name)).Nodup := by
        rwa [map_name_setEnabled]
      have hloop := reloadAll_eq dir h'
      rw [map_name_setEnabled] at hloop
      rw [hloop]
      simpa [Function.comp_def] using h'
  | listen id eventType => exact h

theorem agrees_listen {id : Nat} {eventType : String} (h : Agrees m) :
    Agrees (m.call dir (.listen id eventType)).2 := by
  intro p hp e he
  have hother : [Listener.other id eventType].count (.plugin p.name e) = 0 := by simp
  have := h p hp e he
  simp only [call, List.count_append, hother]
  omega

theorem callAgrees_iff {c : PluginCall} (hnodup : (m.plugins.map (·.name)).Nodup)
    (hagrees : Agrees m) : CallAgrees dir m c ↔ CallOk dir m c := by
  cases c with
  | enable name => exact enablePlugin_iff hnodup hagrees
  | disable name => exact disablePlugin_iff hnodup hagrees
  | listen id eventType => exact iff_of_true (agrees_listen hagrees) trivial

theorem CallAgrees.agrees {c : PluginCall} (h : CallAgrees dir m c) :
    Agrees (m.call dir c).2 := by
  cases c with
  | enable name => exact h.1
  | disable name => exact h.1
  | listen id eventType => exact h

end PluginManager

open PluginManager

/-- From plugin files and listeners of other parts of the application, the registry and the emitter
agree once the plugins are loaded and after every call, and every call does what it answers, exactly
when the files list each event once and every call is one of those that can. -/
theorem plugins_agree_iff (dir : PluginDir) (others : List (Nat × String))
    (calls : List PluginCall) :
    (Agrees (loaded dir others) ∧
        (loaded dir others).others = others.map (fun o => .other o.1 o.2) ∧
        Along (call dir) (CallAgrees dir) (loaded dir others) calls) ↔
      dir.ListsOnce ∧ Along (call dir) (CallOk dir) (loaded dir others) calls := by
  rw [agrees_loaded_iff]
  refine and_congr_right fun honce => ?_
  rw [and_iff_right (others_loaded dir others)]
  refine Along.congr_invariant (P := fun _ _ => True)
    (I := fun m => (m.plugins.map (·.name)).Nodup ∧ Agrees m)
    (along_of_forall (fun _ _ => trivial) _ _) ?_ ?_
    ⟨nodup_loaded dir others, (agrees_loaded_iff dir others).mpr honce⟩
  · intro m c hm _
    exact callAgrees_iff hm.1 hm.2
  · intro m c hm _ h
    exact ⟨nodup_call hm.1, h.agrees⟩

/-- A directory with one plugin, which listens to messages. -/
def echoDir : PluginDir :=
  { files := [("echo.js", some ⟨"echo", "1.0.0", "", "", none, some ["message"], none⟩)]
    distinct := by simp
    named := by simp }

/-- A plugin that is enabled already is loaded a second time. -/
theorem enable_twice_listens_twice :
    let m := loaded echoDir []
    (m.call echoDir (.enable "echo")).1 = some true ∧
      (m.call echoDir (.enable "echo")).2.listeners.count (.plugin "echo" "message") = 2 ∧
      ¬Along (call echoDir) (CallAgrees echoDir) m [.enable "echo"] := by
  intro m
  have hcount :
      (m.call echoDir (.enable "echo")).2.listeners.count (.plugin "echo" "message") = 2 := by
    decide +kernel
  refine ⟨by decide +kernel, hcount, fun h => ?_⟩
  have hagrees : ¬Agrees (m.call echoDir (.enable "echo")).2 := by decide +kernel
  exact hagrees h.1.agrees

end VoxLink
