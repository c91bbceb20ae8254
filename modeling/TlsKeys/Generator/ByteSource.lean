import TlsKeys.Generator.Basic

/-!
Sources of bytes: what a reader may ask of any object that produces bytes and
takes none in.
-/

namespace TlsKeys

class ByteSource (Object : Type) where
  name : String
  byte : Call Object UInt8
  /-- Write the next bytes into a region of a buffer, given by offset and length. -/
  readInto : UInt64 → UInt64 → Call (Object × Buffer) Unit

namespace ByteSource

variable {Object : Type} [ByteSource Object]

def fill : Call (Object × Buffer) Unit :=
  Call.fillBy readInto

def collect (count : UInt64) : Call Object Bytes :=
  Call.takeBy readInto count

inductive Read where
  | byte
  | into (dest : Buffer) (offset length : UInt64)
  | fill (dest : Buffer)
  | collect (count : UInt64)
  deriving DecidableEq

def step (read : Read) (source : Object) : Reply × Object :=
  match read with
  | .byte => Reply.ofCall (fun value => .number value.toNat) byte source
  | .into dest offset length => Reply.ofWrite dest (readInto offset length) source
  | .fill dest => Reply.ofWrite dest fill source
  | .collect count => Reply.ofCall .bytes (collect count) source

end ByteSource

instance : ByteSource Generator where
  name := "tls-prf"
  byte := Call.byteBy Generator.readInto
  readInto := Generator.readInto

end TlsKeys
