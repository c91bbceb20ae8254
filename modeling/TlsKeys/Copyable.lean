/-!
Objects that can be copied.

A copy is made part by part, and from then on the original and the copy are two
objects. That the parts together are all of the original is for every kind of
object to show.
-/

namespace TlsKeys

class Copyable (Object : Type) where
  copy : Object → Object
  copy_eq (object : Object) : copy object = object

attribute [simp] Copyable.copy_eq

end TlsKeys
