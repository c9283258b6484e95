import OpenCompute.Encoding.BigEndian
import OpenCompute.Queue.Model

/-!
# Enqueue fingerprints

The bytes that `enqueue_fingerprint` feeds to SHA-256, field by field in the
order of the source.  The hash itself is a parameter.
-/

namespace OpenCompute
namespace Queue

open Encoding

/-! ## Texts that are hashed -/

def hexDigit (d : Nat) : UInt8 :=
  UInt8.ofNat (if d < 10 then 48 + d else 87 + d)

def uuidText (id : Uuid) : List UInt8 :=
  let digits := (beDigits 16 32 id.toNat).map hexDigit
  digits.take 8 ++ [45] ++ (digits.drop 8).take 4 ++ [45] ++
    (digits.drop 12).take 4 ++ [45] ++ (digits.drop 16).take 4 ++ [45] ++
    digits.drop 20

def QueueContentType.asStr : QueueContentType -> List UInt8
  | .json => [106, 115, 111, 110]
  | .text => [116, 101, 120, 116]
  | .bytes => [98, 121, 116, 101, 115]
  | .v8 => [118, 56]

/-! ## The hashed bytes -/

def batchDelayPreimage : Option Nat -> List UInt8
  | some delay => beBytes 4 1 ++ beBytes 4 delay
  | none => beBytes 4 0

def messagePreimage (message : QueueMessageInput) : List UInt8 :=
  message.contentType.asStr ++ [255] ++ beBytes 8 message.body.length ++ message.body ++
    match message.delaySeconds with
    | some delay => 1 :: beBytes 4 delay
    | none => [0]

def enqueuePreimage (request : QueueEnqueueRequest) : List UInt8 :=
  uuidText request.queueId ++
  beBytes 8 request.lifecycleGeneration ++
  beBytes 8 request.configGeneration ++
  [if request.outputGate then 1 else 0] ++
  beBytes 8 request.messages.length ++
  batchDelayPreimage request.batchDelaySeconds ++
  (request.messages.map messagePreimage).flatten

def enqueueFingerprint (sha256 : List UInt8 -> Digest)
    (request : QueueEnqueueRequest) : Digest :=
  sha256 (enqueuePreimage request)

end Queue
end OpenCompute
