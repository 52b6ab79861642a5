import Gatekeeper.Error

/-!
# Settings

The configuration document: a section for the provider, one for the cache and
one for the verifier, all of which may be left out.
-/

namespace Gatekeeper

open Json

structure ProviderSettings where
  url : Option String
  parameters : Object
  /-- In seconds. -/
  timeout : Option Nat

namespace ProviderSettings

def none : ProviderSettings := ⟨.none, .empty, .none⟩

def record : Record ProviderSettings where
  name := "struct ProviderSettings"
  start := none
  known := [
    .free "url" (fun _ => Reader.optional Reader.string)
      fun v settings => { settings with url := v },
    .free "parameters" Reader.object
      fun v settings => { settings with parameters := v },
    .free "timeout_secs" (fun _ => Reader.optional Reader.uint64)
      fun v settings => { settings with timeout := v }]

def build [Url.International] (settings : ProviderSettings) : Except ProviderFault Provider :=
  Provider.build settings.url settings.parameters (settings.timeout.map (1000 * ·))

end ProviderSettings

structure CacheSettings where
  capacity : Option Nat

namespace CacheSettings

def none : CacheSettings := ⟨.none⟩

def record : Record CacheSettings where
  name := "struct CacheConfig"
  start := none
  known := [
    .free "max_capacity" (fun _ => Reader.optional Reader.uint64)
      fun v settings => { settings with capacity := v }]

end CacheSettings

structure Settings where
  provider : ProviderSettings
  cache : CacheSettings
  verifier : VerifierSettings

namespace Settings

def none : Settings := ⟨.none, .none, .none⟩

def record : Record Settings where
  name := "struct GatewayAuthConfig"
  start := none
  known := [
    .free "provider" ProviderSettings.record.read
      fun v settings => { settings with provider := v },
    .free "cache" CacheSettings.record.read
      fun v settings => { settings with cache := v },
    .free "verifier" VerifierSettings.record.read
      fun v settings => { settings with verifier := v }]

/-- Reads the settings at the front of a document; what follows them is not looked at. -/
def ofBytes (document : List UInt8) : Except Failure Settings :=
  (record.read Reader.depthLimit).outcome document

def parse (document : String) : Except ConfigFault Settings :=
  (ofBytes (Utf8.encode document)).mapError .document

end Settings
end Gatekeeper
