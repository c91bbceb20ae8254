import TlsKeys.Hmac.Formula
import TlsKeys.Hash.Context

/-!
HMAC in progress: the two masked keys are absorbed once, and each message goes
on from there, so that the key itself is not kept.

What a sequence of pieces amounts to is said by `ofMessage`: only the key and
the concatenation of the pieces matter (`absorb_ofMessage`, `tag_ofMessage`).
-/

namespace TlsKeys

structure Hmac (hash : Hash) where
  /-- The inner masked key has been absorbed. -/
  inner : Hash.Context hash
  outer : Hash.Context hash
  /-- The inner masked key and the message so far have been absorbed. -/
  pending : Hash.Context hash
  deriving DecidableEq

namespace Hmac

open Hash (Context)

variable {hash : Hash}

instance : Copyable (Hmac hash) where
  copy mac :=
    { inner := Copyable.copy mac.inner
      outer := Copyable.copy mac.outer
      pending := Copyable.copy mac.pending }
  copy_eq mac := by simp only [Copyable.copy_eq]

def ofKey (hash : Hash) (key : Bytes) : Hmac hash :=
  let inner := (Context.start hash).absorb (hash.maskedKey Hash.innerMask key)
  { inner
    outer := (Context.start hash).absorb (hash.maskedKey Hash.outerMask key)
    pending := inner }

def absorb (mac : Hmac hash) (bytes : Bytes) : Hmac hash :=
  { mac with pending := mac.pending.absorb bytes }

def clear (mac : Hmac hash) : Hmac hash :=
  { mac with pending := mac.inner }

def tag (mac : Hmac hash) : Bytes :=
  (mac.outer.absorb mac.pending.finish).finish

/-- The state in which exactly `message` has been absorbed under `key`. -/
def ofMessage (hash : Hash) (key message : Bytes) : Hmac hash where
  inner := Context.ofMessage hash (hash.maskedKey Hash.innerMask key)
  outer := Context.ofMessage hash (hash.maskedKey Hash.outerMask key)
  pending := Context.ofMessage hash (hash.maskedKey Hash.innerMask key ++ message)

theorem ofKey_eq_ofMessage (hash : Hash) (key : Bytes) :
    ofKey hash key = ofMessage hash key [] := by
  simp [ofKey, ofMessage, Context.absorb_start]

theorem absorb_ofMessage (key message bytes : Bytes) :
    (ofMessage hash key message).absorb bytes = ofMessage hash key (message ++ bytes) := by
  simp [absorb, ofMessage, Context.absorb_ofMessage]

theorem clear_ofMessage (key message : Bytes) :
    (ofMessage hash key message).clear = ofKey hash key := by
  simp [clear, ofMessage, ofKey_eq_ofMessage]

theorem clear_ofKey (key : Bytes) : (ofKey hash key).clear = ofKey hash key := rfl

theorem tag_ofMessage (key message : Bytes) :
    (ofMessage hash key message).tag = hash.hmac key message := by
  simp [tag, ofMessage, Context.finish_ofMessage, Context.absorb_ofMessage, Hash.hmac]

theorem absorb_ofKey (key message : Bytes) :
    (ofKey hash key).absorb message = ofMessage hash key message := by
  rw [ofKey_eq_ofMessage, absorb_ofMessage, List.nil_append]

@[simp] theorem length_tag (mac : Hmac hash) : mac.tag.length = hash.outputLength := by
  simp [tag]

end Hmac

end TlsKeys
