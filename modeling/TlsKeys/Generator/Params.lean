import TlsKeys.Bytes
import TlsKeys.Text

/-!
The values that initialize a generator. Each may be omitted; when it is given
more than once, the last one counts.
-/

namespace TlsKeys

structure Params where
  secret? : Option Bytes := none
  seed? : Option Bytes := none
  deriving DecidableEq

namespace Params

def ofBoth (secret seed : Bytes) : Params where
  secret? := some secret
  seed? := some seed

def ofSeed (seed : Bytes) : Params where
  seed? := some seed

inductive Setting where
  | secret (value : Bytes)
  | seed (value : Bytes)
  deriving DecidableEq

def set (params : Params) : Setting → Params
  | .secret value => { params with secret? := some value }
  | .seed value => { params with seed? := some value }

def ofSettings (settings : List Setting) : Params :=
  settings.foldl set {}

def secretName : String := "secret"

def seedName : String := "seed"

/-- Named values; names other than the two options are passed over. -/
def ofNamed (options : List (String × Bytes)) : Params :=
  options.foldl (fun params (name, value) =>
    if name = secretName then { params with secret? := some value }
    else if name = seedName then { params with seed? := some value }
    else params) {}

def describeLength : Option Bytes → String
  | some value => "Some(" ++ toString value.length ++ ")"
  | none => "None"

/-- A text that shows no more of the values than their lengths. -/
def describe (params : Params) : String :=
  Text.inBraces "PrfParams"
    [Text.field "secret_len" (describeLength params.secret?),
      Text.field "seed_len" (describeLength params.seed?)]

end Params

end TlsKeys
