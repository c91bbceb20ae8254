/-!
Why a call is refused.

A failure has a kind and a cause. Its message is the heading of the kind
followed by the text of the cause; a failure of bounds keeps its three numbers
and writes them out only there.
-/

namespace TlsKeys

inductive Failure.Kind where
  | config
  | key
  | state
  | bounds
  deriving DecidableEq, Repr

inductive Failure where
  /-- A value that the call needs is missing or malformed. -/
  | config (cause : String)
  | key (cause : String)
  /-- The call is out of turn. -/
  | state (cause : String)
  /-- A region does not lie within a buffer of `capacity` bytes. -/
  | bounds (offset length capacity : UInt64)
  deriving DecidableEq, Repr

namespace Failure

def Kind.heading : Kind → String
  | .config => "config error"
  | .key => "invalid key error"
  | .state => "state error"
  | .bounds => "bounds error"

def kind : Failure → Kind
  | .config _ => .config
  | .key _ => .key
  | .state _ => .state
  | .bounds .. => .bounds

def cause : Failure → String
  | .config text => text
  | .key text => text
  | .state text => text
  | .bounds offset length capacity =>
    "offset " ++ toString offset.toNat ++ " with length " ++ toString length.toNat ++
      " exceeds buffer of " ++ toString capacity.toNat ++ " bytes"

def message (failure : Failure) : String :=
  failure.kind.heading ++ " caused by: " ++ failure.cause

def unknownHash (name : String) : Failure :=
  .config ("unknown hash algorithm: " ++ name)

def missingSecret : Failure :=
  .config "no secret supplied"

def missingSeed : Failure :=
  .config "no seed supplied"

def macNotKeyed : Failure :=
  .state "MAC used before init"

def notInitialized : Failure :=
  .state "PRF not initialized"

end Failure

end TlsKeys
