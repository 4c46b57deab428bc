import VoxLink.Plugins.Listeners

/-! An installed plugin is not loaded. Where no string of the plugin breaks out of its quotes, the
file that is written means the plugin as it was given, but as the module itself, whereas loading
looks for a default export. -/

namespace VoxLink

open ProofKit ProofKit.Literals

namespace PluginData

variable {data : PluginData}

/-- The plugin that is to be registered. -/
def plugin (data : PluginData) : Plugin :=
  { name := data.name, version := data.version, description := data.description
    author := data.author, enabled := true, events := data.events, commands := data.commands }

/-- The strings stand for themselves where the file has them. -/
def Plain (data : PluginData) : Prop :=
  IsPlain data.name ∧ IsPlain data.version ∧ IsPlain data.description ∧ IsPlain data.author

instance : Decidable data.Plain := by
  unfold Plain
  infer_instance

/-! ### What the file means -/

/-- The properties of the object literal, with the tokens of their values. -/
def properties (data : PluginData) : List (String × Value × List Token) :=
  [("name", .text data.name, [.text data.name]),
    ("version", .text data.version, [.text data.version]),
    ("description", .text data.description, [.text data.description]),
    ("author", .text data.author, [.text data.author]),
    ("enabled", .truth true, [.word "true"]),
    ("events", .texts data.events, .mark '[' :: textTokens data.events ++ [.mark ']']),
    ("commands", .texts data.commands, .mark '[' :: textTokens data.commands ++ [.mark ']']),
    ("handleEvent", .handler,
      handlerTokens "eventType" "data" ("Plugin " ++ data.name ++ " received event:")),
    ("handleCommand", .handler,
      handlerTokens "command" "data" ("Plugin " ++ data.name ++ " received command:"))]

theorem writes_properties : ∀ p ∈ data.properties, p.1 ≠ "__proto__" ∧ Writes p.2.1 p.2.2 := by
  simp only [properties, List.forall_mem_cons]
  refine ⟨⟨by decide, writes_text⟩, ⟨by decide, writes_text⟩, ⟨by decide, writes_text⟩,
    ⟨by decide, writes_text⟩, ⟨by decide, writes_true⟩, ⟨by decide, writes_texts⟩,
    ⟨by decide, writes_texts⟩, ⟨by decide, writes_handler (by decide) (by decide)⟩,
    ⟨by decide, writes_handler (by decide) (by decide)⟩, ?_⟩
  exact fun _ h => absurd h List.not_mem_nil

variable {content : String} {rest : List Char} {more : List Token} {next last : Mode}

/-- A string of the plugin, the piece of the file up to the next one, and the rest. -/
theorem lexes_field (piece : String) (out : List Token) (hplain : IsPlain content)
    (hquote : piece.toList.head? = some '\'') (hpiece : Lexes .code piece.toList.tail out next)
    (hrest : Lexes next rest more last) :
    Lexes (.text '\'' []) (content.toList ++ (piece.toList ++ rest))
      (.text content :: (out ++ more)) last := by
  obtain ⟨back, hback⟩ := List.head?_eq_some_iff.mp hquote
  rw [hback, List.tail_cons] at hpiece
  have hfield : Lexes (.text '\'' []) (content.toList ++ '\'' :: (back ++ rest)) _ last :=
    lexes_through hplain (hpiece.append hrest)
  rwa [List.reverse_nil, List.nil_append, String.ofList_toList, ← List.cons_append,
    ← hback] at hfield

/-- The name in a message of a handler, and the piece of the file up to the next one. -/
theorem lexes_message (message piece : String) (out : List Token) (hplain : IsPlain content)
    (hmessage : IsPlain message)
    (hquote : piece.toList = message.toList ++ '\'' :: piece.toList.drop (message.length + 1))
    (hpiece : Lexes .code (piece.toList.drop (message.length + 1)) out next)
    (hrest : Lexes next rest more last) :
    Lexes (.text '\'' "Plugin ".toList.reverse) (content.toList ++ (piece.toList ++ rest))
      (.text ("Plugin " ++ content ++ message) :: (out ++ more)) last := by
  have hfront : ∀ c ∈ content.toList ++ message.toList,
      c ≠ '\'' ∧ c ≠ '\\' ∧ isLineEnd c = false := by
    intro c hc
    exact (List.mem_append.mp hc).elim (hplain c) (hmessage c)
  have htext : String.ofList ("Plugin ".toList.reverse.reverse ++
      (content.toList ++ message.toList)) = "Plugin " ++ content ++ message := by
    apply String.toList_injective
    simp only [String.toList_ofList, String.toList_append, List.reverse_reverse, List.append_assoc]
  have hfile : Lexes (.text '\'' "Plugin ".toList.reverse) _ _ last :=
    lexes_through hfront (hpiece.append hrest)
  rw [htext] at hfile
  rw [hquote]
  simpa only [List.append_assoc, List.cons_append] using hfile

theorem lexes_pluginCode (h : data.Plain) : Lexes .code data.pluginCode.toList
    ([.word "module", .mark '.', .word "exports", .mark '=', .mark '{'] ++
      propertyTokens data.properties ++ [.mark '}', .mark ';']) .code := by
  obtain ⟨hname, hversion, hdescription, hauthor⟩ := h
  have hopen : Lexes .code "\nmodule.exports = \x7b\n  name: '".toList
      [.word "module", .mark '.', .word "exports", .mark '=', .mark '{', .word "name", .mark ':']
      (.text '\'' []) := by
    decide +kernel
  have hcommands : Lexes .code ",\n  commands: ".toList [.mark ',', .word "commands", .mark ':']
      .code := by
    decide +kernel
  have hevent : Lexes .code
      (",\n  \n  handleEvent: function(eventType, data) \x7b\n    // Plugin event handler\n".toList
        ++ "    console.log('Plugin ".toList)
      (.mark ',' :: .word "handleEvent" :: .mark ':' :: handlerOpen "eventType" "data")
      (.text '\'' "Plugin ".toList.reverse) := by
    decide +kernel
  have hcommand : Lexes .code
      ("  \n  handleCommand: function(command, data) \x7b\n    // Plugin command handler\n".toList
        ++ "    console.log('Plugin ".toList)
      (.word "handleCommand" :: .mark ':' :: handlerOpen "command" "data")
      (.text '\'' "Plugin ".toList.reverse) := by
    decide +kernel
  have hend : Lexes .code [] [] .code := .nil
  have hlast := lexes_message " received command:"
    " received command:', command, data);\n  \x7d\n\x7d;\n"
    (handlerClose "command" "data" ++ [.mark '}', .mark ';'])
    hname (by decide +kernel) (by decide +kernel) (by decide +kernel) hend
  have hhandlers := lexes_message " received event:"
    " received event:', eventType, data);\n  \x7d,\n"
    (handlerClose "eventType" "data" ++ [.mark ','])
    hname (by decide +kernel) (by decide +kernel) (by decide +kernel) (hcommand.append hlast)
  have hafter := (lexes_stringify data.events).append (hcommands.append
    ((lexes_stringify data.commands).append (hevent.append hhandlers)))
  have hauthor := lexes_field "',\n  enabled: true,\n  events: "
    [.mark ',', .word "enabled", .mark ':', .word "true", .mark ',', .word "events", .mark ':']
    hauthor (by decide +kernel) (by decide +kernel) hafter
  have hdescription := lexes_field "',\n  author: '" [.mark ',', .word "author", .mark ':']
    hdescription (by decide +kernel) (by decide +kernel) hauthor
  have hversion := lexes_field "',\n  description: '"
    [.mark ',', .word "description", .mark ':']
    hversion (by decide +kernel) (by decide +kernel) hdescription
  have hname := lexes_field "',\n  version: '" [.mark ',', .word "version", .mark ':']
    hname (by decide +kernel) (by decide +kernel) hversion
  have hfile := hopen.append hname
  unfold pluginCode
  simpa only [properties, propertyTokens, handlerTokens, String.toList_append, List.append_assoc,
    List.cons_append, List.nil_append, List.append_nil] using hfile

theorem readExports_pluginCode (h : data.Plain) :
    readExports data.pluginCode = some (data.properties.map fun p => (p.1, p.2.1)) :=
  readExports_of_lexes (lexes_pluginCode h) (List.cons_ne_nil _ _) writes_properties

/-- The file has no default export. -/
theorem run_pluginCode (engine : Engine) (h : data.Plain) :
    engine.run data.pluginCode = some none := by
  rw [Engine.run, readExports_pluginCode h]
  rfl

end PluginData

/-! ### What loading leaves in the registry -/

namespace PluginManager

variable {m : PluginManager} {name : String} {p : Plugin} {plugins : List Plugin}

theorem find?_setPlugin : (setPlugin p plugins).find? (·.name = name) =
    if p.name = name then some p else plugins.find? (·.name = name) := by
  unfold setPlugin
  split
  · rename_i hany
    have hkey : ((fun q : Plugin => decide (q.name = name)) ∘ fun q =>
        if decide (q.name = p.name) then p else q) = fun q => decide (q.name = name) := by
      funext q
      simp only [Function.comp_apply, decide_eq_true_eq]
      split
      · rename_i hq
        rw [hq]
      · rfl
    rw [Rows.modify, List.find?_map, hkey]
    cases hfind : plugins.find? (·.name = name) with
    | none =>
      rw [if_neg, Option.map_none]
      rintro rfl
      obtain ⟨q, hq, hname⟩ := List.any_eq_true.mp hany
      exact List.find?_eq_none.mp hfind q hq hname
    | some q =>
      have hq : q.name = name := by simpa using List.find?_some hfind
      simp only [Option.map_some, hq, decide_eq_true_eq, eq_comm (a := name)]
      split
      · rfl
      · rfl
  · rename_i hany
    have hnone : ∀ q ∈ plugins, q.name ≠ p.name := by simpa using hany
    rw [List.find?_append]
    split
    · rename_i hname
      have hfind : plugins.find? (·.name = name) = none := by
        refine List.find?_eq_none.mpr fun q hq => ?_
        simpa [← hname] using hnone q hq
      rw [hfind, Option.none_or, List.find?_singleton, if_pos (by simpa using hname)]
    · rename_i hname
      rw [List.find?_singleton, if_neg (by simpa using hname), Option.or_none]

theorem getPlugin_loadExport {found : Option PluginExport} :
    (m.loadExport found).getPlugin name =
      match found with
      | some d => if d.name = name then some d.toPlugin else m.getPlugin name
      | none => m.getPlugin name := by
  cases found with
  | none => rfl
  | some d => rw [getPlugin, loadExport_some, find?_setPlugin,
    PluginExport.toPlugin_name, getPlugin]

end PluginManager

namespace PluginHost

variable {host : PluginHost} {engine : Engine} {data : PluginData} {d : PluginExport}

/-- The default export that loading finds: that of the module in the cache, or one that a string
of the plugin has put into the file, where it breaks out of its quotes. -/
inductive Exports (host : PluginHost) (engine : Engine) (data : PluginData) : PluginExport → Prop
  | cached {d : PluginExport} (h : host.cache data.filename = some (some d)) :
    Exports host engine data d
  | smuggled {d : PluginExport} (hcache : host.cache data.filename = none) (hplain : ¬data.Plain)
    (hrun : engine.run data.pluginCode = some (some d)) : Exports host engine data d

theorem require_eq_some :
    (host.require engine data.filename data.pluginCode).1 = some d ↔
      host.Exports engine data d := by
  constructor
  · intro h
    unfold require at h
    split at h
    · rename_i found hcache
      obtain rfl : found = some d := h
      exact .cached hcache
    · rename_i hcache
      split at h
      · rename_i found hrun
        obtain rfl : found = some d := h
        refine .smuggled hcache (fun hplain => ?_) hrun
        rw [PluginData.run_pluginCode engine hplain] at hrun
        cases hrun
      · cases h
  · intro h
    cases h with
    | cached hcache => rw [require, hcache]
    | smuggled hcache _ hrun => simp only [require, hcache, hrun]

/-- The file cannot be written, or loading finds the plugin as it was given, or it finds nothing
under its name and the registry has had the plugin as it is given. -/
def LoadsBack (host : PluginHost) (engine : Engine) (written : Bool) (data : PluginData) : Prop :=
  written = false ∨ (∃ d, host.Exports engine data d ∧ d.toPlugin = data.plugin) ∨
    host.manager.getPlugin data.name = some data.plugin ∧
      ∀ d, host.Exports engine data d → d.name ≠ data.name

theorem installPlugin_written : (host.installPlugin engine true data).1 = true := rfl

theorem getPlugin_installPlugin :
    (host.installPlugin engine true data).2.manager.getPlugin data.name =
      match (host.require engine data.filename data.pluginCode).1 with
      | some d => if d.name = data.name then some d.toPlugin else host.manager.getPlugin data.name
      | none => host.manager.getPlugin data.name := by
  have hmanager : (host.require engine data.filename data.pluginCode).2.manager = host.manager := by
    unfold require
    split
    · rfl
    · split
      · rfl
      · rfl
  have hinstalled : (host.installPlugin engine true data).2.manager =
      host.manager.loadExport (host.require engine data.filename data.pluginCode).1 := by
    rw [← hmanager]
    rfl
  rw [hinstalled, PluginManager.getPlugin_loadExport]

/-- An installed plugin is loaded back as it was given where an export that is not the new file's
own says the same, or an earlier registration does. -/
theorem installed_iff (host : PluginHost) (engine : Engine) (written : Bool) (data : PluginData) :
    ((host.installPlugin engine written data).1 = true →
      (host.installPlugin engine written data).2.manager.getPlugin data.name = some data.plugin) ↔
      host.LoadsBack engine written data := by
  cases written with
  | false => exact ⟨fun _ => .inl rfl, fun _ h => nomatch h⟩
  | true =>
    rw [getPlugin_installPlugin, imp_iff_right installPlugin_written, LoadsBack]
    simp only [← require_eq_some, Bool.true_eq_false, false_or]
    cases hfound : (host.require engine data.filename data.pluginCode).1 with
    | none => simp
    | some d =>
      simp only [Option.some.injEq]
      split
      · rename_i hname
        constructor
        · intro hplugin
          exact .inl ⟨d, rfl, Option.some.inj hplugin⟩
        · rintro (⟨_, rfl, hplugin⟩ | ⟨-, hother⟩)
          · exact congrArg some hplugin
          · exact absurd hname (hother d rfl)
      · rename_i hname
        constructor
        · intro hplugin
          refine .inr ⟨hplugin, ?_⟩
          rintro _ rfl
          exact hname
        · rintro (⟨_, rfl, hplugin⟩ | ⟨hplugin, -⟩)
          · exact absurd (congrArg Plugin.name hplugin) hname
          · exact hplugin

/-- A host that has loaded nothing. -/
def fresh : PluginHost := { manager := { plugins := [], listeners := [] }, cache := fun _ => none }

/-- A plugin whose file is plain. -/
def hello : PluginData :=
  { name := "hello", version := "1.0.0", description := "Says hello", author := "Ann"
    events := ["message:new"], commands := ["/hello"], named := by decide }

theorem hello_not_loaded :
    ¬((fresh.installPlugin (fun _ => none) true hello).1 = true →
      (fresh.installPlugin (fun _ => none) true hello).2.manager.getPlugin hello.name =
        some hello.plugin) := by
  intro h
  have hplain : hello.Plain := by decide +kernel
  have hnone : (fresh.require (fun _ => none) hello.filename hello.pluginCode).1 = none := by
    cases hfound : (fresh.require (fun _ => none) hello.filename hello.pluginCode).1 with
    | none => rfl
    | some d =>
      cases require_eq_some.mp hfound with
      | cached hcache => cases hcache
      | smuggled _ hbroken _ => exact absurd hplain hbroken
  have hget := h installPlugin_written
  rw [getPlugin_installPlugin, hnone] at hget
  cases hget

end PluginHost

end VoxLink
