import TlsKeys.Bytes
import TlsKeys.Failure

/-!
The two hash functions of TLS 1.0 and 1.1: their names, their sizes and the
order in which they write numbers.
-/

namespace TlsKeys

inductive Hash where
  | md5
  | sha1
  deriving DecidableEq, Repr

namespace Hash

def name : Hash → String
  | .md5 => "MD5"
  | .sha1 => "SHA1"

def mixedCaseName : Hash → String
  | .md5 => "Md5"
  | .sha1 => "Sha1"

/-- The letters A to Z become a to z; every other character stays as it is. -/
def foldCase (text : String) : List Char :=
  text.toList.map Char.toLower

def ofName? (text : String) : Option Hash :=
  let folded := foldCase text
  if folded = "md5".toList then some .md5
  else if folded = "sha1".toList ∨ folded = "sha-1".toList then some .sha1
  else none

def parse (text : String) : Except Failure Hash :=
  match ofName? text with
  | some hash => .ok hash
  | none => .error (.unknownHash text)

def wordCount : Hash → Nat
  | .md5 => 4
  | .sha1 => 5

/-- The number of bytes of a hash. -/
def outputLength : Hash → Nat
  | .md5 => 16
  | .sha1 => 20

theorem outputLength_eq_wordCount (hash : Hash) : hash.outputLength = 4 * hash.wordCount := by
  cases hash <;> rfl

theorem outputLength_pos (hash : Hash) : 0 < hash.outputLength := by
  cases hash <;> decide

def blockLength : Nat := 64

abbrev State (hash : Hash) : Type :=
  Vector UInt32 hash.wordCount

/-- The lowest `count` bytes of a number: MD5 writes the least significant first, SHA-1 last. -/
def ofNumber (hash : Hash) (count number : Nat) : Bytes :=
  match hash with
  | .md5 => Bytes.ofNatLittle count number
  | .sha1 => Bytes.ofNatBig count number

@[simp] theorem length_ofNumber (hash : Hash) (count number : Nat) :
    (hash.ofNumber count number).length = count := by
  cases hash <;> simp [ofNumber]

def output {hash : Hash} (state : hash.State) : Bytes :=
  state.toList.flatMap fun word => hash.ofNumber 4 word.toNat

@[simp] theorem length_output {hash : Hash} (state : hash.State) :
    (output state).length = hash.outputLength := by
  rw [outputLength_eq_wordCount, Nat.mul_comm]
  simp only [output, List.length_flatMap, length_ofNumber, List.map_const',
    List.sum_replicate_nat, Vector.length_toList]

end Hash

end TlsKeys
