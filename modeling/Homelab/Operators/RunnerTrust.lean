import Homelab.Operators.Common

namespace Homelab.RunnerTrust

open Json (Object)

/-! # Strict host trust, before any ordinary Ansible command -/

/-- The phases in which provisioning still owns a Server. -/
def reservedPhases : List Json :=
  [.str "PreparingBoot", .str "AwaitingLive", .str "Installing", .str "AwaitingInstalled",
    .str "Verifying"]

/-- What a trusted host contributes: its line of the known_hosts file, and the
SSH arguments that every occurrence of it in the inventory is given. -/
structure HostTrust where
  name : String
  entry : String
  commonArgs : String

/-- Accept a verified managed identity only. -/
def hostTrust (env : Environment) (name : String) (server : Resource) : Except Exn HostTrust := do
  demand (!server.terminating) (runtimeError "Server is terminating")
  let provisioning ← member server.status "provisioning"
  demand (!holds provisioning "maintenance" && !reservedPhases.contains (value provisioning "phase"))
    (runtimeError ("Server " ++ name ++ " is reserved by provisioning"))
  let host ← member server.status "hostSSH"
  demand (holds host "keyReady" && value host "phase" = .str "Ready" && holds host "keyPairRef" &&
      Json.Same (value host "installedKeyPairRef") (value host "keyPairRef"))
    (runtimeError ("Server " ++ name ++ " has not verified its managed SSH identity"))
  let recorded ← itemString host "publicKey"
  let key ← publicKey recorded
  let print ← fingerprint env key
  demand (Json.str print = value host "fingerprint" &&
      Json.Same (value host "installedFingerprint") (value host "fingerprint"))
    (runtimeError "Server host-key fingerprint mismatch")
  let hostKeyAlias ← hostAlias server.uid
  return {
    name
    entry := hostKeyAlias ++ " " ++ key ++ "\n"
    commonArgs := "-o HostKeyAlias=" ++ shlexQuote hostKeyAlias }

/-- Ordinary commands never trust on first use. -/
def prepare (env : Environment) (fetch : String → Task Resource) (inventory : Object) :
    Task (List HostTrust) := do
  let hosts ← inventoryHosts inventory
  hosts.mapM fun host => do
    let server ← fetch host.1
    hostTrust env host.1 server

/-- The content of the known_hosts file. -/
def knownHosts (trusted : List HostTrust) : String := String.join (trusted.map HostTrust.entry)

end Homelab.RunnerTrust
