import HfsPlus.Bytes

/-!
# Hashing what comes in chunks

What is copied is hashed while it is copied, chunk by chunk. Which digest that gives is
left to a `Hasher`; it is expected to give the digest of all bytes together, however
they were cut into chunks.
-/

namespace HfsPlus

/-- A digest that is made while the bytes come in. -/
structure Hasher where
  /-- What is kept of the chunks that came in. -/
  State : Type
  start : State
  update : State → Bytes → State
  /-- The digest of everything that came in. -/
  finish : State → Bytes

end HfsPlus
