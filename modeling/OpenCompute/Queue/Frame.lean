import OpenCompute.Encoding.Readable
import OpenCompute.Queue.Fingerprint

/-!
# Frames

A Worker sends messages in a frame: a header with their number, then each with
the length of its body.  The encoder runs in the Worker, the decoder in the
platform, and a frame is decoded exactly when the encoder can have written it.
-/

namespace OpenCompute
namespace Queue

open Encoding Transaction List

/-! ## The encoder -/

def contentCode : QueueContentType -> UInt8
  | .json => 1
  | .text => 2
  | .bytes => 3
  | .v8 => 4

/-- What `setInt32` writes for a delay, with `-1` for none. -/
def delayCode : Option Nat -> Nat
  | none => 0xffffffff
  | some delay => delay

def encodeMessage (message : QueueMessageInput) : List UInt8 :=
  contentCode message.contentType :: (beBytes 4 (delayCode message.delaySeconds) ++
    (beBytes 4 message.body.length ++ message.body))

def frameMagic : List UInt8 := [0x4f, 0x43, 0x51, 0x31]

def encodeQueueFrame (messages : List QueueMessageInput) (batchDelay : Option Nat)
    (operation : UInt8) : List UInt8 :=
  frameMagic ++ operation :: (beBytes 2 messages.length ++
    (beBytes 4 (delayCode batchDelay) ++ messages.flatMap encodeMessage))

/-! ## The decoder -/

inductive QueueOperation where
  | send
  | batch
  | metrics
  | finalize
deriving DecidableEq

structure ParsedFrame where
  batchDelaySeconds : Option Nat
  messages : List QueueMessageInput
deriving DecidableEq

def frameError : PlatformError :=
  ⟨.queueInvariantViolation, "Queue private frame is invalid"⟩

def delayError : PlatformError := ⟨.queueDelayInvalid, "Queue delay is outside 0..86400"⟩

/-- `decode_delay` of `i32::from_be_bytes`, by the number without a sign: `-1` is the largest,
and the other negative numbers are larger than all delays. -/
def decodeDelay (code : Nat) : Result (Option Nat) :=
  if code = 0xffffffff then
    .ok none
  else if code ≤ queueMaxDelaySeconds then
    .ok (some code)
  else
    .error delayError

def decodeContentType : UInt8 -> Option QueueContentType
  | 1 => some .json
  | 2 => some .text
  | 3 => some .bytes
  | 4 => some .v8
  | _ => none

def parseMessage : List UInt8 -> Nat -> Result (QueueMessageInput × List UInt8)
  | code :: d0 :: d1 :: d2 :: d3 :: l0 :: l1 :: l2 :: l3 :: bytes, total => do
    let contentType ← okOr (decodeContentType code)
      ⟨.queueContentTypeUnsupported, "Queue frame content type is unsupported"⟩
    let delaySeconds ← decodeDelay (beNat [d0, d1, d2, d3])
    let length := beNat [l0, l1, l2, l3]
    ensure (length ≤ queueMaxMessageBytes)
      ⟨.queueMessageTooLarge, "Queue frame message exceeds 128000 bytes"⟩
    ensure (length ≤ bytes.length) frameError
    ensure (total + length ≤ queueMaxBatchBytes)
      ⟨.queueBatchLimitExceeded, "Queue frame batch body limit exceeded"⟩
    return (⟨contentType, bytes.take length, delaySeconds⟩, bytes.drop length)
  | _, _ => .error frameError

def parseMessages : Nat -> List UInt8 -> Nat -> Result (List QueueMessageInput)
  | 0, bytes, _ => do
    ensure (bytes = []) frameError
    return []
  | count + 1, bytes, total => do
    let (message, rest) ← parseMessage bytes total
    let messages ← parseMessages count rest (total + message.body.length)
    return message :: messages

def QueueOperation.admits (operation : QueueOperation) (code : UInt8) : Prop :=
  (operation = .send -> code = 1) ∧ (operation = .batch -> code = 2)

instance (operation : QueueOperation) (code : UInt8) : Decidable (operation.admits code) := by
  unfold QueueOperation.admits
  infer_instance

def parseFrame : List UInt8 -> QueueOperation -> Result ParsedFrame
  | m0 :: m1 :: m2 :: m3 :: code :: n0 :: n1 :: d0 :: d1 :: d2 :: d3 :: bytes, operation => do
    ensure ([m0, m1, m2, m3] = frameMagic) frameError
    ensure (operation.admits code) frameError
    let count := beNat [n0, n1]
    ensure (count ≠ 0 ∧ count ≤ queueMaxBatchMessages ∧ (operation = .send -> count = 1))
      ⟨.queueBatchLimitExceeded, "Queue frame message count is outside the supported range"⟩
    let batchDelaySeconds ← decodeDelay (beNat [d0, d1, d2, d3])
    let messages ← parseMessages count bytes 0
    return ⟨batchDelaySeconds, messages⟩
  | _, _ => .error frameError

/-! ## The wire limits -/

def DelayFits (delay : Option Nat) : Prop := forall d, delay = some d -> d ≤ queueMaxDelaySeconds

structure WithinWireLimits (operation : QueueOperation) (messages : List QueueMessageInput)
    (batchDelay : Option Nat) : Prop where
  delay : DelayFits batchDelay
  nonempty : messages.length ≠ 0
  count : messages.length ≤ queueMaxBatchMessages
  single : operation = .send -> messages.length = 1
  each : forall m, m ∈ messages -> DelayFits m.delaySeconds ∧ m.body.length ≤ queueMaxMessageBytes
  total : (messages.map fun m => m.body.length).sum ≤ queueMaxBatchBytes

section Fields

variable {bytes rest : List UInt8} {delay : Option Nat} {total : Nat} {m : QueueMessageInput}

theorem decodeContentType_eq_some {code : UInt8} {c : QueueContentType} :
    decodeContentType code = some c ↔ code = contentCode c := by
  constructor
  · intro h
    unfold decodeContentType at h
    split at h <;> cases h <;> rfl
  · rintro rfl
    cases c <;> rfl

theorem decodeDelay_eq_ok (hlength : bytes.length = 4) : decodeDelay (beNat bytes) = .ok delay ↔
      bytes = beBytes 4 (delayCode delay) ∧ DelayFits delay := by
  constructor
  · intro h
    have hbytes := (beBytes_beNat hlength).right
    unfold decodeDelay at h
    split at h
    · rename_i hnone
      cases h
      rw [hnone] at hbytes
      exact ⟨hbytes.symm, nofun⟩
    · split at h <;> cases h
      rename_i hmax
      exact ⟨hbytes.symm, fun d hd => Option.some.inj hd ▸ hmax⟩
  · rintro ⟨rfl, hfits⟩
    cases delay with
    | none => decide
    | some d =>
      have hmax : d ≤ 86400 := hfits d rfl
      rw [decodeDelay, delayCode, beNat_beBytes (by omega), if_neg (by omega), if_pos (hfits d rfl)]

theorem beBytes_four (n : Nat) : exists a b c d, beBytes 4 n = [a, b, c, d] := ⟨_, _, _, _, rfl⟩

theorem parseMessage_eq_ok :
    parseMessage bytes total = .ok (m, rest) ↔ bytes = encodeMessage m ++ rest ∧
      (DelayFits m.delaySeconds ∧ m.body.length ≤ queueMaxMessageBytes) ∧
      total + m.body.length ≤ queueMaxBatchBytes := by
  constructor
  · intro h
    unfold parseMessage at h
    split at h
    · rename_i d0 d1 d2 d3 l0 l1 l2 l3 bytes
      simp only [ok_iff, decodeContentType_eq_some, Prod.mk.injEq] at h
      rcases h with ⟨_, rfl, _, hdelay, hmax, hend, htotal, rfl, rfl⟩
      rcases (decodeDelay_eq_ok (by rfl)).mp hdelay with ⟨hfield, hfits⟩
      have hsize := (@beBytes_beNat 4 [l0, l1, l2, l3] rfl).right
      rw [encodeMessage, length_take_of_le hend, ← hfield, hsize, cons_append,
        append_assoc, append_assoc, take_append_drop]
      exact ⟨rfl, ⟨hfits, hmax⟩, htotal⟩
    · cases h
  · rintro ⟨rfl, ⟨hfits, hmax⟩, htotal⟩
    have hdelay := (decodeDelay_eq_ok (length_beBytes _ _)).mpr ⟨rfl, hfits⟩
    have hsize := @beNat_beBytes 4 _ (lt_of_le_of_lt hmax (by decide))
    rcases beBytes_four m.body.length with ⟨l0, l1, l2, l3, hl⟩
    rcases beBytes_four (delayCode m.delaySeconds) with ⟨d0, d1, d2, d3, hd⟩
    rw [encodeMessage, hl, hd]
    rw [hd] at hdelay
    rw [hl] at hsize
    change parseMessage
      (_ :: d0 :: d1 :: d2 :: d3 :: l0 :: l1 :: l2 :: l3 :: (m.body ++ rest)) total = _
    simp only [parseMessage, ok_iff, decodeContentType_eq_some, Prod.mk.injEq, hsize]
    refine ⟨m.contentType, rfl, m.delaySeconds, hdelay, hmax, ?_, htotal, ?_, drop_left⟩
    · rw [length_append]
      exact Nat.le_add_right _ _
    · rw [take_left]

theorem parseMessages_eq_ok {count : Nat} {messages : List QueueMessageInput}
    (htotal : total ≤ queueMaxBatchBytes) :
    parseMessages count bytes total = .ok messages ↔
      messages.length = count ∧ bytes = messages.flatMap encodeMessage ∧
      (forall m, m ∈ messages ->
        DelayFits m.delaySeconds ∧ m.body.length ≤ queueMaxMessageBytes) ∧
      total + (messages.map fun m => m.body.length).sum ≤ queueMaxBatchBytes := by
  induction count generalizing bytes total messages with
  | zero =>
    simp only [parseMessages, ok_iff]
    constructor
    · rintro ⟨rfl, rfl⟩
      exact ⟨rfl, rfl, forall_mem_nil _, htotal⟩
    · rintro ⟨hcount, rfl, _⟩
      cases length_eq_zero_iff.mp hcount
      exact ⟨rfl, rfl⟩
  | succ count ih =>
    simp only [parseMessages, ok_iff, Prod.exists, parseMessage_eq_ok]
    constructor
    · rintro ⟨m, _, ⟨rfl, hm, hfirst⟩, rest, hrest, rfl⟩
      rcases (ih hfirst).mp hrest with ⟨rfl, rfl, heach, hsum⟩
      rw [Nat.add_assoc] at hsum
      exact ⟨rfl, flatMap_cons.symm, forall_mem_cons.mpr ⟨hm, heach⟩, hsum⟩
    · rintro ⟨hcount, rfl, heach, hsum⟩
      rcases messages with _ | ⟨m, rest⟩
      · cases hcount
      rw [map_cons, sum_cons, ← Nat.add_assoc] at hsum
      rcases forall_mem_cons.mp heach with ⟨hm, hrest⟩
      have hfirst := le_trans (Nat.le_add_right _ _) hsum
      exact ⟨m, rest.flatMap encodeMessage, ⟨flatMap_cons, hm, hfirst⟩, rest,
        (ih hfirst).mpr ⟨Nat.succ.inj hcount, rfl, hrest, hsum⟩, rfl⟩

end Fields

section Frames

variable {bytes : List UInt8} {operation : QueueOperation} {frame : ParsedFrame}

theorem parseFrame_eq_ok : parseFrame bytes operation = .ok frame ↔
    WithinWireLimits operation frame.messages frame.batchDelaySeconds ∧
    exists code, operation.admits code ∧
      bytes = encodeQueueFrame frame.messages frame.batchDelaySeconds code := by
  constructor
  · intro h
    unfold parseFrame at h
    split at h
    · rename_i code n0 n1 d0 d1 d2 d3 bytes
      simp only [ok_iff, parseMessages_eq_ok (Nat.zero_le _), Nat.zero_add] at h
      rcases h with ⟨hmagic, hadmits, ⟨hne, hcount, hsingle⟩, _, hdelay, messages,
        ⟨hnumber, rfl, heach, hsum⟩, rfl⟩
      rcases (decodeDelay_eq_ok (by rfl)).mp hdelay with ⟨hfield, hfits⟩
      have hsize := (@beBytes_beNat 2 [n0, n1] rfl).right
      rw [← hnumber] at hne hcount hsingle hsize
      refine ⟨⟨hfits, hne, hcount, hsingle, heach, hsum⟩, code, hadmits, ?_⟩
      rw [encodeQueueFrame, hsize, ← hfield, ← hmagic]
      rfl
    · cases h
  · rcases frame with ⟨batchDelay, messages⟩
    rintro ⟨hlimits, code, hadmits, rfl⟩
    have hdelay := (decodeDelay_eq_ok (length_beBytes _ _)).mpr ⟨rfl, hlimits.delay⟩
    have hsize := @beNat_beBytes 2 _ (lt_of_le_of_lt hlimits.count (by decide))
    have htwo : exists n0 n1, beBytes 2 messages.length = [n0, n1] := ⟨_, _, rfl⟩
    rcases htwo with ⟨n0, n1, hn⟩
    rcases beBytes_four (delayCode batchDelay) with ⟨d0, d1, d2, d3, hd⟩
    rw [hn] at hsize
    rw [hd] at hdelay
    rw [encodeQueueFrame, hn, hd]
    change parseFrame
      (0x4f :: 0x43 :: 0x51 :: 0x31 :: code :: n0 :: n1 :: d0 :: d1 :: d2 :: d3 :: _) operation = _
    simp only [parseFrame, ok_iff, parseMessages_eq_ok (Nat.zero_le _), Nat.zero_add,
      hsize]
    exact ⟨rfl, hadmits, ⟨hlimits.nonempty, hlimits.count, hlimits.single⟩, batchDelay, hdelay,
      messages, ⟨rfl, rfl, hlimits.each, hlimits.total⟩, rfl⟩

theorem encodeMessage_readable :
    Readable (fun m => DelayFits m.delaySeconds ∧ m.body.length ≤ queueMaxMessageBytes)
      encodeMessage := by
  intro x y s t hx hy heq
  have hread : forall z u, DelayFits z.delaySeconds ∧ z.body.length ≤ queueMaxMessageBytes ->
      parseMessage (encodeMessage z ++ u) 0 = .ok (z, u) := fun z u hz =>
    parseMessage_eq_ok.mpr ⟨rfl, hz, by rw [Nat.zero_add]; exact le_trans hz.right (by decide)⟩
  exact Prod.mk.inj (Except.ok.inj ((hread x s hx).symm.trans (heq ▸ hread y t hy)))

end Frames

/-- A frame is accepted exactly when the encoder writes it for what is returned, and none of its
truncations is. -/
theorem frame_codec (bytes : List UInt8) (operation : QueueOperation) (frame : ParsedFrame) :
    (parseFrame bytes operation = .ok frame ↔
      WithinWireLimits operation frame.messages frame.batchDelaySeconds ∧
      exists code, operation.admits code ∧
        bytes = encodeQueueFrame frame.messages frame.batchDelaySeconds code) ∧
    (parseFrame bytes operation = .ok frame -> forall n frame', n < bytes.length ->
      parseFrame (bytes.take n) operation ≠ .ok frame') := by
  refine ⟨parseFrame_eq_ok, ?_⟩
  intro hframe n frame' hn hcut
  rcases parseFrame_eq_ok.mp hframe with ⟨h, code, _, hbytes⟩
  rcases parseFrame_eq_ok.mp hcut with ⟨h', code', _, hbytes'⟩
  have htail : bytes.drop n = [] := by
    have heq : encodeQueueFrame frame.messages frame.batchDelaySeconds code =
        encodeQueueFrame frame'.messages frame'.batchDelaySeconds code' ++ bytes.drop n := by
      rw [← hbytes, ← hbytes', List.take_append_drop]
    simp only [encodeQueueFrame, List.append_assoc, List.cons_append, List.append_cancel_left_eq,
      List.cons.injEq] at heq
    rcases List.append_inj heq.right (by simp) with ⟨hcount, hrest⟩
    rcases List.append_inj hrest (by simp) with ⟨_, hmessages⟩
    have hlength := beBytes_injective (lt_of_le_of_lt h.count (by decide))
      (lt_of_le_of_lt h'.count (by decide)) hcount
    rw [← List.append_nil (frame.messages.flatMap encodeMessage)] at hmessages
    exact (encodeMessage_readable.flatten hlength h.each h'.each hmessages).right.symm
  exact absurd (List.drop_eq_nil_iff.mp htail) (Nat.not_le.mpr hn)

def sampleFrame : ParsedFrame := ⟨some 5, [⟨.text, [104, 105], none⟩, ⟨.v8, [], some 60⟩]⟩

def sampleBytes : List UInt8 :=
  encodeQueueFrame sampleFrame.messages sampleFrame.batchDelaySeconds 2

theorem frame_codec_batch : parseFrame sampleBytes .batch = .ok sampleFrame ∧
    forall frame', parseFrame (sampleBytes.take 30) .batch ≠ .ok frame' := by
  have hframe : parseFrame sampleBytes .batch = .ok sampleFrame := by decide +kernel
  exact ⟨hframe, fun frame' => (frame_codec _ _ _).right hframe 30 frame' (by decide)⟩

end Queue
end OpenCompute
