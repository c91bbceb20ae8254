import TlsKeys.Generator.ByteSource

/-!
The operations on a generator as data, so that scripts of them can be run and
compared.
-/

namespace TlsKeys.Generator

inductive Read where
  | byte
  | take (count : UInt64)
  | into (dest : Buffer) (offset length : UInt64)
  | fill (dest : Buffer)
  | word32
  | word64
  /-- As any source of bytes is read. -/
  | source (read : ByteSource.Read)
  deriving DecidableEq

/-- A read by means of a call that writes into a region of a buffer. -/
def Read.stepBy {Object : Type} [ByteSource Object]
    (readInto : UInt64 → UInt64 → Call (Object × Buffer) Unit) (read : Read) (object : Object) :
    Reply × Object :=
  match read with
  | .byte => Reply.ofCall (fun value => .number value.toNat) (Call.byteBy readInto) object
  | .take count => Reply.ofCall .bytes (Call.takeBy readInto count) object
  | .into dest offset length => Reply.ofWrite dest (readInto offset length) object
  | .fill dest => Reply.ofWrite dest (Call.fillBy readInto) object
  | .word32 => Reply.ofCall (fun value => .word value.toUInt64) (Call.word32By readInto) object
  | .word64 => Reply.ofCall .word (Call.word64By readInto) object
  | .source read => ByteSource.step read object

def Read.step (read : Read) (generator : Generator) : Reply × Generator :=
  read.stepBy readInto generator

inductive Op where
  | configure (params : Params)
  | reseedInto (seed : Bytes) (dest : Buffer)
  | read (read : Read)
  | isReady
  | describe
  | sourceName
  deriving DecidableEq

def step (op : Op) (generator : Generator) : Reply × Generator :=
  match op with
  | .configure params => Reply.ofCall (fun _ => .done) (configure params) generator
  | .reseedInto seed dest => Reply.ofWrite dest (Generator.reseedInto seed) generator
  | .read read => read.step generator
  | .isReady => (.flag generator.isReady, generator)
  | .describe => (.text generator.describe, generator)
  | .sourceName => (.text (ByteSource.name Generator), generator)

end TlsKeys.Generator
