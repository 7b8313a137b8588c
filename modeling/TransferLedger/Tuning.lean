import TransferLedger.Json.Record
import TransferLedger.Json.Stored
import TransferLedger.Retry
import TransferLedger.Route

/-! What can be tuned about a run: how requests are retried in each direction,
and how long the rate limiter waits between two grants.

A document names the settings that it overrides; all other settings keep their
defaults, which differ between the directions.
-/

namespace TransferLedger

structure Tuning where
  upload : RetryPolicy := .forUpload
  download : RetryPolicy := .forDownload
  pacerWait : Duration := .ofMillis 50
  deriving DecidableEq

namespace Tuning

/-- The retry settings that a document overrides. -/
structure PolicyOverride where
  maxTries : Option UInt32 := none
  tryTimeout : Option Duration := none
  retryDelay : Option Duration := none
  maxRetryDelay : Option Duration := none
  deriving DecidableEq

namespace PolicyOverride

def fieldNames : List String :=
  ["maxTries", "tryTimeoutMs", "retryDelayMs", "maxRetryDelayMs"]

def apply (override : PolicyOverride) (policy : RetryPolicy) : RetryPolicy where
  maxTries := override.maxTries.getD policy.maxTries
  tryTimeout := override.tryTimeout.getD policy.tryTimeout
  retryDelay := override.retryDelay.getD policy.retryDelay
  maxRetryDelay := override.maxRetryDelay.getD policy.maxRetryDelay

end PolicyOverride

def millis? (json : Json) : Option Duration :=
  json.uint64?.map Duration.ofMillis

def PolicyOverride.ofJson? : Json → Option PolicyOverride :=
  Json.readRecord? fieldNames do
    let maxTries ← Json.withDefault none (Json.nullable? Json.uint32?)
    let tryTimeout ← Json.withDefault none (Json.nullable? millis?)
    let retryDelay ← Json.withDefault none (Json.nullable? millis?)
    let maxRetryDelay ← Json.withDefault none (Json.nullable? millis?)
    pure { maxTries, tryTimeout, retryDelay, maxRetryDelay }

def fieldNames : List String :=
  ["upload", "download", "pacerWaitMs"]

/-- The defaults with the settings of a document in their place. -/
def ofJson? : Json → Option Tuning :=
  Json.readRecord? fieldNames do
    let upload ← Json.withDefault {} PolicyOverride.ofJson?
    let download ← Json.withDefault {} PolicyOverride.ofJson?
    let pacerWait ← Json.withDefault none (Json.nullable? millis?)
    let defaults : Tuning := {}
    pure {
      upload := upload.apply defaults.upload
      download := download.apply defaults.download
      pacerWait := pacerWait.getD defaults.pacerWait }

def ofText? (text : String) : Option Tuning :=
  Json.parse? ofJson? text

def load (volume : Volume) (path : Volume.Path) : Except Json.StoredFault Tuning :=
  Json.load ofJson? volume path

/-- The retry policy of a route.  Routes without a local end are retried like
uploads. -/
def policy (tuning : Tuning) (route : Route) : RetryPolicy :=
  match route.direction? with
  | some .download => tuning.download
  | some .upload | none => tuning.upload

end Tuning

end TransferLedger
