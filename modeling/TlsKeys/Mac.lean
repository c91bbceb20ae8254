import TlsKeys.Call
import TlsKeys.Hmac.Basic
import TlsKeys.Text

/-!
A message authentication code that may not have a key yet.

A code is made for one of the two hashes, by name (`md5`, `sha1`) or boxed by
the hash itself (`Hash.newMac`), and it has no key then. A region is checked
before the key is asked for, so a bad region is reported whether or not there is
a key. A failed call changes nothing.
-/

namespace TlsKeys

inductive Mac (hash : Hash) where
  | unkeyed
  | keyed (mac : Hmac hash)
  deriving DecidableEq

namespace Mac

variable {hash : Hash}

def new (hash : Hash) : Mac hash :=
  unkeyed

def md5 : Mac .md5 :=
  new .md5

def sha1 : Mac .sha1 :=
  new .sha1

instance : Copyable (Mac hash) where
  copy
    | unkeyed => unkeyed
    | keyed mac => keyed (Copyable.copy mac)
  copy_eq
    | unkeyed => rfl
    | keyed mac => congrArg keyed (Copyable.copy_eq mac)

def hasKey : Mac hash → Bool
  | unkeyed => false
  | keyed _ => true

/-- The number of bytes of a tag, which is that of the words of the hash state. -/
def tagLength (hash : Hash) : Nat :=
  4 * hash.wordCount

@[simp] theorem tagLength_eq_outputLength (hash : Hash) : tagLength hash = hash.outputLength :=
  hash.outputLength_eq_wordCount.symm

def describe (mac : Mac hash) : String :=
  Text.inBraces "HmacAdapter"
    [Text.field "algorithm" hash.mixedCaseName, Text.field "keyed" (toString mac.hasKey),
      Text.andMore]

def demandKeyed : Call (Mac hash) (Hmac hash) := do
  match ← get with
  | unkeyed => throw .macNotKeyed
  | keyed mac => return mac

/-- Set the key, and begin a new message. -/
def key (bytes : Bytes) : Call (Mac hash) Unit :=
  set (keyed (Hmac.ofKey hash bytes))

def absorb (bytes : Bytes) : Call (Mac hash) Unit := do
  let mac ← demandKeyed
  set (keyed (mac.absorb bytes))

def append (bytes : Buffer) (offset length : UInt64) : Call (Mac hash) Unit := do
  let region ← Region.check bytes.size offset length
  absorb (bytes.slice region)

def appendAll (bytes : Buffer) : Call (Mac hash) Unit :=
  append bytes 0 bytes.size

/-- The tag of the message so far, which goes on unchanged. -/
def tag : Call (Mac hash) Bytes := do
  let mac ← demandKeyed
  return mac.tag

/-- Begin a new message under the same key; without a key, nothing happens. -/
def clear : Call (Mac hash) Unit :=
  modify fun
    | unkeyed => unkeyed
    | keyed mac => keyed mac.clear

@[simp] theorem on_key (bytes : Bytes) (mac : Mac hash) :
    (key bytes).on mac = (.ok (), keyed (Hmac.ofKey hash bytes)) := rfl

@[simp] theorem on_absorb_keyed (bytes : Bytes) (mac : Hmac hash) :
    (absorb bytes).on (keyed mac) = (.ok (), keyed (mac.absorb bytes)) := rfl

theorem on_append (bytes : Buffer) (offset length : UInt64) (mac : Mac hash) :
    (append bytes offset length).on mac =
      match Region.check bytes.size offset length with
      | .ok region => (absorb (bytes.slice region)).on mac
      | .error failure => (.error failure, mac) := by
  rw [append, Call.on_bind]
  cases Region.check bytes.size offset length <;> rfl

theorem on_appendAll (bytes : Buffer) (mac : Mac hash) :
    (appendAll bytes).on mac = (absorb bytes.bytes).on mac := by
  simp only [appendAll, on_append, bytes.check_whole, bytes.slice_whole]

@[simp] theorem on_tag_keyed (mac : Hmac hash) :
    tag.on (keyed mac) = (.ok mac.tag, keyed mac) := rfl

@[simp] theorem on_clear_keyed (mac : Hmac hash) :
    clear.on (keyed mac) = (.ok (), keyed mac.clear) := rfl

inductive Op where
  | key (bytes : Bytes)
  | append (bytes : Buffer) (offset length : UInt64)
  | appendAll (bytes : Buffer)
  | tag
  | clear
  | tagLength
  | algorithm
  | hasKey
  | describe
  deriving DecidableEq

def step (op : Op) (mac : Mac hash) : Reply × Mac hash :=
  match op with
  | .key bytes => Reply.ofCall (fun _ => .done) (key bytes) mac
  | .append bytes offset length => Reply.ofCall (fun _ => .done) (append bytes offset length) mac
  | .appendAll bytes => Reply.ofCall (fun _ => .done) (appendAll bytes) mac
  | .tag => Reply.ofCall .bytes tag mac
  | .clear => Reply.ofCall (fun _ => .done) clear mac
  | .tagLength => (.number (tagLength hash), mac)
  | .algorithm => (.text hash.name, mac)
  | .hasKey => (.flag mac.hasKey, mac)
  | .describe => (.text mac.describe, mac)

/-- A code of which only the calls are known, and not the hash that it was made for. -/
abbrev Boxed : Type :=
  (hash : Hash) × Mac hash

def Boxed.step (op : Op) (boxed : Boxed) : Reply × Boxed :=
  let (reply, mac) := Mac.step op boxed.2
  (reply, ⟨boxed.1, mac⟩)

end Mac

def Hash.newMac : Hash → Mac.Boxed
  | .md5 => ⟨.md5, .md5⟩
  | .sha1 => ⟨.sha1, .sha1⟩

end TlsKeys
