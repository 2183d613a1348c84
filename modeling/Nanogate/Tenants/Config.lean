import Nanogate.Python.Text
import Nanogate.Tenants.World

/-!
# Tenant configurations

What `write_config` and `provision_tenant` do to a configuration before anything is
written or started. Python changes the dictionary in place; here each step returns the
changed value. A setting of an unexpected shape raises, at the first operation that does
not apply to it.

## Main definitions

* `mergeSettings` — the port, the nested dictionaries and the workspace override of
  `write_config`
* `usesHostPath` — the test that decides which workspace is mounted
* `injectEnv` — the environment of the container, and the configuration it leaves behind
* `setupCommands` — the commands that are run in a new container

## Main results

* `mergeSettings_eq_ok` — everything a successful merge does
* `injectEnv_saved` — the environment changes the configuration at most where it came from
-/

namespace Nanogate.Tenants

open Nanogate.Python

/-- The workspace inside a container. -/
def containerWorkspace : String := "/root/.nanobot/workspace"

/-- `config_data["agents"]["defaults"]["workspace"]`, `None` where it is missing. -/
def workspaceSetting (config : Json) : Json :=
  ((config.getD "agents").getD "defaults").getD "workspace"

/-- The value of a key that must be a dictionary and is made one when it is missing. -/
def sectionOf (config : Json) (key : String) : Except Err Json :=
  let value := (config.get key).getD (.obj [])
  if value.isObj then .ok value else .error (.other "TypeError")

/-- The configuration that `write_config` writes, and the workspace it found: the port is set,
`agents.defaults` exists, and the workspace is the one inside the container. -/
def mergeSettings (config : Json) : Except Err (Json × Json) := do
  let gateway ← sectionOf config "gateway"
  let config := config.set "gateway" (gateway.set "port" (.num 8765))
  let agents ← sectionOf config "agents"
  let defaults ← sectionOf agents "defaults"
  let workspace := defaults.getD "workspace"
  let defaults := defaults.set "workspace" (.str containerWorkspace)
  pure (config.set "agents" (agents.set "defaults" defaults), workspace)

/-- `user_workspace and not str(user_workspace).strip().startswith("/root/")` -/
def usesHostPath (workspace : Json) : Bool :=
  workspace.truthy &&
    match workspace with
    | .str s => !startsWith "/root/" (strip s)
    -- the text of any other value starts differently
    | _ => true

/-- `Path(value).expanduser().resolve()`; only strings are paths. -/
def resolvePath (host : Host) : Json → Except Err PurePath
  | .str s => host.resolve s
  | _ => .error (.other "TypeError")

/-- `host_workspace` -/
def hostWorkspace (host : Host) (dir : PurePath) (workspace : Json) : Except Err PurePath :=
  if usesHostPath workspace then resolvePath host workspace else .ok (dir.join "workspace")

/-- Set a key that is missing. -/
def setDefault (env : Json) (key : String) (value : Json) : Json :=
  match env.get key with
  | some _ => env
  | none => env.set key value

/-- `(d.get(key) or {})` where the next operation is `.get`. -/
def subDict (d : Json) (key : String) : Except Err Json :=
  let value := (d.getD key).or (.obj [])
  if value.isObj then .ok value else .error (.other "AttributeError")

/-- `config_data.providers.openai.apiKey`, or else the key of the gateway's environment. -/
def openaiKey (host : Host) (config : Json) : Except Err Json := do
  let providers ← subDict config "providers"
  let openai ← subDict providers "openai"
  pure ((openai.getD "apiKey").or (match host.environ "OPENAI_API_KEY" with
    | some key => .str key
    | none => .null))

/-- `custom_env` after the injections. -/
def customEnv (host : Host) (tenantId : String) (config env : Json) : Except Err Json := do
  if !env.isObj then throw (.other "TypeError")
  let env := env.set "TENANT_ID" (.str tenantId)
  let env := setDefault env "REDIS_URL"
    (.str ((host.environ "NANOGATE_REDIS_URL").getD "redis://host.docker.internal:6379"))
  match env.get "OPENAI_API_KEY" with
  | some _ => pure env
  | none => do
    let key ← openaiKey host config
    pure (if key.truthy then env.set "OPENAI_API_KEY" key else env)

/-- `custom_env` of `provision_tenant`, and the configuration afterwards: a nonempty
`gateway.env` is the same dictionary as `custom_env` and is changed with it. -/
def injectEnv (host : Host) (tenantId : String) (config : Json) : Except Err (Json × Json) := do
  let gateway := config.getD "gateway"
  let env := gateway.getD "env"
  let injected ← customEnv host tenantId config (env.or (.obj []))
  pure (injected,
    if env.truthy then config.set "gateway" (gateway.set "env" injected) else config)

/-- What iterating over `setup_commands` yields. -/
def setupCommands (config : Json) : Except Err (List Json) :=
  match ((config.getD "gateway").get "setupCommands").getD (.arr []) with
  | .arr xs => .ok xs
  | .str s => .ok (s.toList.map fun c => .str (String.ofList [c]))
  | .obj kvs => .ok (kvs.map fun kv => .str kv.1)
  | v => if v.truthy then .error (.other "TypeError") else .ok []

/-! ### Merging -/

variable {config config' : Json} {workspace : Json}

theorem sectionOf_eq_ok {key : String} {value : Json} (h : sectionOf config key = .ok value) :
    value = (config.get key).getD (.obj []) ∧ value.isObj = true := by
  unfold sectionOf at h
  dsimp only at h
  split_ifs at h with hobj
  obtain rfl := Except.ok.inj h
  exact ⟨rfl, hobj⟩

/-- A section that was made is as empty as one that is missing. -/
theorem getD_sectionOf {key k : String} {value : Json} (h : sectionOf config key = .ok value) :
    value.getD k = (config.getD key).getD k := by
  obtain ⟨rfl, -⟩ := sectionOf_eq_ok h
  rw [Json.getD.eq_def config]
  cases config.get key <;> rfl

/-- Everything a successful merge does. -/
theorem mergeSettings_eq_ok (h : mergeSettings config = .ok (config', workspace)) :
    ∃ gateway agents defaults, sectionOf config "gateway" = .ok gateway ∧
      sectionOf (config.set "gateway" (gateway.set "port" (.num 8765))) "agents" = .ok agents ∧
      sectionOf agents "defaults" = .ok defaults ∧ workspace = defaults.getD "workspace" ∧
      config' = (config.set "gateway" (gateway.set "port" (.num 8765))).set "agents"
        (agents.set "defaults" (defaults.set "workspace" (.str containerWorkspace))) := by
  unfold mergeSettings at h
  cases hgateway : sectionOf config "gateway" with
  | error e => simp [hgateway, bind, Except.bind] at h
  | ok gateway =>
    cases hagents : sectionOf (config.set "gateway" (gateway.set "port" (.num 8765))) "agents" with
    | error e => simp [hgateway, hagents, bind, Except.bind] at h
    | ok agents =>
      cases hdefaults : sectionOf agents "defaults" with
      | error e => simp [hgateway, hagents, hdefaults, bind, Except.bind] at h
      | ok defaults =>
        simp only [hgateway, hagents, hdefaults, bind, Except.bind, pure, Except.pure,
          Except.ok.injEq, Prod.mk.injEq] at h
        exact ⟨gateway, agents, defaults, rfl, hagents, hdefaults, h.2.symm, h.1.symm⟩

/-- The environment of the container changes the configuration at most where it came from. -/
theorem injectEnv_saved {host : Host} {tenantId : String} {environment saved : Json}
    (h : injectEnv host tenantId config = .ok (environment, saved)) :
    saved = config ∨
      saved = config.set "gateway" ((config.getD "gateway").set "env" environment) := by
  unfold injectEnv at h
  cases henv : customEnv host tenantId config (((config.getD "gateway").getD "env").or (.obj []))
    with
  | error e => simp [henv, bind, Except.bind] at h
  | ok injected =>
    simp only [henv, bind, Except.bind, pure, Except.pure, Except.ok.injEq, Prod.mk.injEq] at h
    obtain ⟨rfl, rfl⟩ := h
    split_ifs
    · exact .inr rfl
    · exact .inl rfl

end Nanogate.Tenants
