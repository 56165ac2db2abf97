/-
KasmCloud.Host.Providers — `Host::start_provider` and `Host::stop_provider`
(`crates/host/src/lib.rs`).

Both hold the write lock of `Host.providers` from their first look at the
table to their return, so each is one step. What the surroundings decide is
an argument: the fetched image, the step of a start that fails, if one does,
and how a shutdown request ends.

A provider process is spawned with `kill_on_drop`: it is killed when its
`Child` is dropped, which is when a start fails after the spawn and when its
`ProviderInstance` leaves the table.
-/
import KasmCloud.Host.State

namespace KasmCloud

open Lib

/-! ## Processes -/

/-- `Command::spawn`; the process gets the next unused number. -/
def Host.spawnProcess (host : Host) (path : String) : Host :=
  { host with
    processes := insert host.nextId host.processes
    processEffects := host.processEffects ++ [.spawn host.nextId path]
    nextId := host.nextId + 1 }

/-- The encoded host data goes to the standard input of a process. -/
def Host.writeHostData (host : Host) (pid : Pid) (data : HostData) : Host :=
  { host with processEffects := host.processEffects ++ [.hostData pid data] }

/-- A `Child` is dropped. -/
def Host.killProcess (host : Host) (pid : Pid) : Host :=
  { host with
    processes := host.processes.erase pid
    processEffects := host.processEffects ++ [.kill pid] }

/-! ## start_provider -/

/-- Where a start can fail once the image is fetched, in order. -/
inductive StartFailure where
  | invocationSeed
  | rpcUserSeed
  | rpcTimeout
  | serialize
  | spawn
  | takeStdin
  | writeData
  | writeNewline
  | closeStdin
  deriving DecidableEq, Repr

def StartFailure.message : StartFailure → String
  | .invocationSeed => "cluster key seed missing"
  | .rpcUserSeed => "private key missing for provider RPC key"
  | .rpcTimeout => "failed to convert rpc_timeout to u64"
  | .serialize => "failed to serialize provider data"
  | .spawn => "failed to spawn provider process"
  | .takeStdin => "failed to take stdin"
  | .writeData => "failed to write provider data"
  | .writeNewline => "failed to write newline"
  | .closeStdin => "failed to close stdin"

/-- The process is there when it fails. -/
def StartFailure.spawned : StartFailure → Bool
  | .takeStdin | .writeData | .writeNewline | .closeStdin => true
  | _ => false

/-- The process has the host data when it fails. -/
def StartFailure.written : StartFailure → Bool
  | .writeNewline | .closeStdin => true
  | _ => false

/-- The definitions a provider is told at its start. -/
def Host.providerLinks (host : Host) (key linkName : String) : List LinkDefinition :=
  host.links.values.filter fun ld => ld.providerId = key ∧ ld.linkName = linkName

/-- `Ulid::new`. -/
def Host.takeId (host : Host) : Ulid × Host :=
  (host.nextId, { host with nextId := host.nextId + 1 })

/-- The process of a new instance. -/
def Host.runProvider (host : Host) (path : String) (data : HostData)
    (failure : Option StartFailure) : Host × Except String Pid :=
  let pid : Pid := host.nextId
  match failure with
  | none => ((host.spawnProcess path).writeHostData pid data, .ok pid)
  | some failure =>
    if failure.spawned then
      let spawned := host.spawnProcess path
      let written := if failure.written then spawned.writeHostData pid data else spawned
      (written.killProcess pid, .error failure.message)
    else (host, .error failure.message)

/-- The entry of a public key, which is made if there is none: before
anything can fail, and without an instance. -/
def Host.enterProvider (host : Host) (claims : Jwt.Claims Jwt.CapabilityProvider)
    (providerRef : String) : Provider × Host :=
  match host.providers.lookup claims.subject with
  | some provider => (provider, host)
  | none =>
    let provider : Provider := ⟨claims, ∅, providerRef⟩
    (provider, { host with providers := host.providers.insert claims.subject provider })

/-- The vacant branch of `start_provider`: a new instance for the entry. -/
def Host.launchProvider (host : Host) (provider : Provider) (linkName : String)
    (image : ProviderImage) (failure : Option StartFailure) :
    Host × Except String (Jwt.Claims Jwt.CapabilityProvider) :=
  let key := image.claims.subject
  match host.takeId with
  | (id, host) =>
    let data : HostData := ⟨linkName, id, key, host.providerLinks key linkName⟩
    match host.runProvider image.path data failure with
    | (host, .ok child) =>
      ({ host with
          providers := host.providers.insert key
            { provider with instances := provider.instances.insert linkName ⟨id, child⟩ } },
        .ok image.claims)
    | (host, .error e) => (host, .error e)

/-- `Host::start_provider`. -/
def Host.startProvider (host : Host) (linkName providerRef : String)
    (fetched : Except String ProviderImage) (failure : Option StartFailure) :
    Host × Except String (Jwt.Claims Jwt.CapabilityProvider) :=
  match fetched with
  | .error _ => (host, .error "failed to fetch provider")
  | .ok image =>
    match host.enterProvider image.claims providerRef with
    | (provider, host) =>
      match provider.instances.lookup linkName with
      | some _ => (host, .ok image.claims)
      | none => host.launchProvider provider linkName image failure

/-! ## stop_provider -/

/-- How the request to shut down ends. -/
inductive ShutdownOutcome where
  | notEncoded
  | answered
  | unanswered
  deriving DecidableEq, Repr

/-- The subject of a shutdown request. -/
def shutdownTopic (latticePrefix key linkName : String) : String :=
  "wasmbus.rpc." ++ latticePrefix ++ "." ++ key ++ "." ++ linkName ++ ".shutdown"

/-- The request to shut down; whatever becomes of it, the host goes on. -/
def Host.requestShutdown (host : Host) (key linkName : String) (shutdown : ShutdownOutcome) :
    Host :=
  let subject := shutdownTopic host.latticePrefix key linkName
  match shutdown with
  | .notEncoded => host
  | .answered =>
    { host with
      processEffects := host.processEffects ++ [.shutdownRequest subject, .shutdownReply true] }
  | .unanswered =>
    { host with
      processEffects := host.processEffects ++ [.shutdownRequest subject, .shutdownReply false] }

/-- `Host::stop_provider`; it never fails. `entry.remove()` drops the
instance at once, so the process is killed before it is asked to stop. -/
def Host.stopProvider (host : Host) (linkName key : String) (shutdown : ShutdownOutcome) : Host :=
  match host.providers.lookup key with
  | none => host
  | some provider =>
    let instances := provider.instances.erase linkName
    let stopped : Host :=
      match provider.instances.lookup linkName with
      | some found => (host.killProcess found.child).requestShutdown key linkName shutdown
      | none => host
    { stopped with
      providers :=
        if HashMap.isEmpty instances then stopped.providers.erase key
        else stopped.providers.insert key { provider with instances } }

end KasmCloud
