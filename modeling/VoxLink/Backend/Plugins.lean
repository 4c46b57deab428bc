import VoxLink.ProofKit.Rows
import VoxLink.ProofKit.Literals

/-! `plugins/plugin-manager.ts`: the registry of plugins, the event emitter they listen to, and the
files that installing a plugin writes. -/

namespace VoxLink

open ProofKit

structure Plugin where
  name : String
  version : String
  description : String
  author : String
  enabled : Bool
  events : List String
  commands : List String
deriving DecidableEq, Repr

/-- The default export of a plugin's file. -/
structure PluginExport where
  name : String
  version : String
  description : String
  author : String
  enabled : Option Bool
  events : Option (List String)
  commands : Option (List String)
deriving DecidableEq, Repr

def PluginExport.toPlugin (d : PluginExport) : Plugin :=
  { name := d.name, version := d.version, description := d.description, author := d.author
    enabled := d.enabled != some false, events := d.events.getD []
    commands := d.commands.getD [] }

@[simp] theorem PluginExport.toPlugin_name (d : PluginExport) : d.toPlugin.name = d.name := rfl

/-- The files `pluginDir` holds, named after their plugins. A file that `require` fails on or that
has no object as its default export comes with `none`. -/
structure PluginDir where
  files : List (String × Option PluginExport)
  distinct : (files.map (·.1)).Nodup
  named : ∀ f ∈ files, ∀ d ∈ f.2, f.1 = d.name ++ ".js" ∨ f.1 = d.name ++ ".json"

/-- The default export that `require` finds. -/
def PluginDir.require (dir : PluginDir) (filename : String) : Option PluginExport :=
  (dir.files.find? (·.1 = filename)).bind (·.2)

def isPluginFile (file : String) : Bool :=
  ".js".toList.isSuffixOf file.toList || ".json".toList.isSuffixOf file.toList

inductive Listener where
  | plugin (name eventType : String)
  /-- A listener of another part of the application. -/
  | other (id : Nat) (eventType : String)
deriving DecidableEq, Repr

def Listener.isOther : Listener → Bool
  | .plugin _ _ => false
  | .other _ _ => true

/-- The map from names to plugins, whose keys are the names of its values, and the listeners of
the emitter in the order they were registered in. -/
structure PluginManager where
  plugins : List Plugin
  listeners : List Listener
deriving DecidableEq, Repr

namespace PluginManager

/-- `Map.set`: a key that the map has stays in its place. -/
def setPlugin (plugin : Plugin) (plugins : List Plugin) : List Plugin :=
  if plugins.any (·.name = plugin.name) then
    Rows.modify (·.name = plugin.name) (fun _ => plugin) plugins
  else
    plugins ++ [plugin]

def getPlugin (m : PluginManager) (name : String) : Option Plugin :=
  m.plugins.find? (·.name = name)

def setEnabled (name : String) (enabled : Bool) (plugins : List Plugin) : List Plugin :=
  Rows.modify (·.name = name) (fun p => { p with enabled }) plugins

def registerPluginEvents (plugin : Plugin) (m : PluginManager) : PluginManager :=
  { m with listeners := m.listeners ++ plugin.events.map (.plugin plugin.name) }

/-- `loadPlugin`, once `require` has answered. -/
def loadExport (found : Option PluginExport) (m : PluginManager) : PluginManager :=
  match found with
  | some d =>
    let plugin := d.toPlugin
    let m := { m with plugins := setPlugin plugin m.plugins }
    if plugin.enabled && 0 < plugin.events.length then registerPluginEvents plugin m else m
  | none => m

def loadPlugin (dir : PluginDir) (filename : String) (m : PluginManager) : PluginManager :=
  loadExport (dir.require filename) m

def loadPlugins (dir : PluginDir) (m : PluginManager) : PluginManager :=
  let pluginFiles := (dir.files.map (·.1)).filter isPluginFile
  pluginFiles.foldl (fun m file => loadPlugin dir file m) m

def enablePlugin (m : PluginManager) (dir : PluginDir) (name : String) : Bool × PluginManager :=
  match m.getPlugin name with
  | none => (false, m)
  | some _ =>
    (true, loadPlugin dir (name ++ ".js") { m with plugins := setEnabled name true m.plugins })

/-- The loop of `disablePlugin` over the keys of the map. It reads each value when it comes to it,
and adds no key, since a file sets the key that it is named after. -/
def reloadEnabled (dir : PluginDir) : List String → PluginManager → PluginManager
  | [], m => m
  | pluginName :: rest, m =>
    match m.getPlugin pluginName with
    | some pluginData =>
      if pluginData.enabled then
        reloadEnabled dir rest (loadPlugin dir (pluginName ++ ".js") m)
      else
        reloadEnabled dir rest m
    | none => reloadEnabled dir rest m

def disablePlugin (m : PluginManager) (dir : PluginDir) (name : String) : Bool × PluginManager :=
  match m.getPlugin name with
  | none => (false, m)
  | some _ =>
    (true, reloadEnabled dir (m.plugins.map (·.name))
      { plugins := setEnabled name false m.plugins, listeners := [] })

end PluginManager

/-- What happens to the registry and the emitter once the plugins are loaded. -/
inductive PluginCall where
  | enable (name : String)
  | disable (name : String)
  /-- Another part of the application registers a listener. -/
  | listen (id : Nat) (eventType : String)
deriving DecidableEq, Repr

/-- The answer of a call, and what it leaves. -/
def PluginManager.call (dir : PluginDir) (m : PluginManager) :
    PluginCall → Option Bool × PluginManager
  | .enable name => (some (m.enablePlugin dir name).1, (m.enablePlugin dir name).2)
  | .disable name => (some (m.disablePlugin dir name).1, (m.disablePlugin dir name).2)
  | .listen id eventType => (none, { m with listeners := m.listeners ++ [.other id eventType] })

/-- The plugins loaded beside the listeners `others`. -/
def PluginManager.loaded (dir : PluginDir) (others : List (Nat × String)) : PluginManager :=
  loadPlugins dir { plugins := [], listeners := others.map fun o => .other o.1 o.2 }

/-! ### Installing a plugin -/

def isFileName (name : String) : Bool := name.toList.all fun c => c ≠ '/' && c ≠ '\x00'

/-- What `installPlugin` is given, with a name that a file can have. -/
structure PluginData where
  name : String
  version : String
  description : String
  author : String
  events : List String
  commands : List String
  named : isFileName name = true
deriving DecidableEq

def PluginData.filename (data : PluginData) : String := data.name ++ ".js"

def PluginData.pluginCode (data : PluginData) : String :=
  "\nmodule.exports = \x7b\n  name: '" ++ data.name ++
  "',\n  version: '" ++ data.version ++
  "',\n  description: '" ++ data.description ++
  "',\n  author: '" ++ data.author ++
  "',\n  enabled: true,\n  events: " ++ Literals.stringify data.events ++
  ",\n  commands: " ++ Literals.stringify data.commands ++
  ",\n  \n  handleEvent: function(eventType, data) \x7b\n    // Plugin event handler\n" ++
  "    console.log('Plugin " ++ data.name ++ " received event:', eventType, data);\n  \x7d,\n" ++
  "  \n  handleCommand: function(command, data) \x7b\n    // Plugin command handler\n" ++
  "    console.log('Plugin " ++ data.name ++ " received command:', command, data);\n  \x7d\n\x7d;\n"

/-- How Node runs a file: `none` where that throws, and else the file's default export, where it
has an object for one. -/
abbrev Engine := String → Option (Option PluginExport)

/-- Running a file. One that only assigns an object literal without a property `default` has no
default export, whatever the engine. -/
def Engine.run (engine : Engine) (code : String) : Option (Option PluginExport) :=
  match Literals.readExports code with
  | some properties =>
    if properties.any (·.1 = "default") then engine code else some none
  | none => engine code

/-- The manager, and the modules that `require` has loaded, by the names of their files. -/
structure PluginHost where
  manager : PluginManager
  cache : String → Option (Option PluginExport)

namespace PluginHost

/-- `require` of a file with this text, which is not read where the module is in the cache. A file
that throws leaves no module. -/
def require (host : PluginHost) (engine : Engine) (filename code : String) :
    Option PluginExport × PluginHost :=
  match host.cache filename with
  | some found => (found, host)
  | none =>
    match engine.run code with
    | some found =>
      (found, { host with cache := fun f => if f = filename then some found else host.cache f })
    | none => (none, host)

/-- Whether the file can be written is `written`. -/
def installPlugin (host : PluginHost) (engine : Engine) (written : Bool) (data : PluginData) :
    Bool × PluginHost :=
  if written then
    let (found, host) := host.require engine data.filename data.pluginCode
    (true, { host with manager := host.manager.loadExport found })
  else
    (false, host)

end PluginHost

end VoxLink
