import HfsPlus.Error

/-!
# Where bytes come from

A source holds the bytes of a disk and is asked for some of them at a position.
It need not give all at once: it may be interrupted, give fewer bytes than asked
for, or fail. Being asked at or past its end it gives none.

`gather` hides all of this. It repeats an interrupted request, asks again where
the last delivery ended, and stops when it has what was wanted or the source has
no more. Each delivery shortens what is still wanted, so gathering ends however
small the pieces are.
-/

namespace HfsPlus

/-- What happens to one request. A source is interrupted finitely often before it
delivers or fails. -/
inductive Delivery where
  /-- Nothing yet: the same request has to be made again. -/
  | interrupted (again : Delivery)
  | failed (reason : String)
  | delivered (bytes : Bytes)

/-- Repeat an interrupted request until it comes to an end. -/
def Delivery.settle : Delivery → Except Error Bytes
  | interrupted again => again.settle
  | failed reason => .error (.io reason)
  | delivered bytes => .ok bytes

/-- Something that bytes can be asked of by position. -/
structure Source where
  /-- How many bytes there are; zero when that is not known. -/
  size : Nat
  /-- Ask for `wanted` bytes from `offset` on. -/
  deliver : (offset wanted : Nat) → Delivery

namespace Source

/-- The bytes of some deliveries, of which the last comes first. -/
def assemble : List Bytes → Bytes
  | [only] => only
  | collected => collected.reverse.flatten

/-- Deliveries are put one behind the other, also if there is only one. -/
theorem assemble_eq (collected : List Bytes) : assemble collected = collected.reverse.flatten := by
  unfold assemble
  split
  · simp
  · rfl

/-- Gather `wanted` bytes from `start` on behind the deliveries collected so far, of
which the last comes first. -/
def gatherBehind (source : Source) (start wanted : Nat) (collected : List Bytes) :
    Except Error Bytes :=
  if wanted = 0 then .ok (assemble collected)
  else
    match (source.deliver start wanted).settle with
    | .error error => .error error
    | .ok [] => .ok (assemble collected)
    | .ok (first :: others) =>
      let front := first :: others.take (wanted - 1)
      gatherBehind source (start + front.length) (wanted - front.length) (front :: collected)
termination_by wanted
decreasing_by simp only [List.length_cons]; omega

/-- The bytes from `start` on, `wanted` of them or as many as there are. -/
def gather (source : Source) (start wanted : Nat) : Except Error Bytes :=
  source.gatherBehind start wanted []

/-- A source that holds an image and always delivers as much as it can. -/
def ofImage (image : ByteArray) : Source where
  size := image.size
  deliver offset wanted := .delivered (Bytes.ofByteArray (image.extract offset (offset + wanted)))

end Source

end HfsPlus
