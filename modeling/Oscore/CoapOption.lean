/-
The three parsers of attacker-controlled option bytes: the OSCORE option value,
the inner CoAP body as the sender checks it, and the payload-marker scan the
receiver runs.  The last two are separately written loops over one grammar.
-/
import Oscore.SeqNum
import Oscore.Crypto

namespace Oscore

open Rust

/-- Parsed OSCORE option. -/
structure OscoreOption where
  piv : Bytes
  kidContext : Bytes
  kidContextPresent : Bool
  kid : Bytes
  kidPresent : Bool
deriving Repr, DecidableEq

/-- The PIV field, `n` bytes from position 1. -/
def parsePiv (data : Bytes) (n : Nat) : Outcome OscoreError (Bytes × Nat) :=
  if n > 0 then do
    failIf (n > pivMaxLen ∨ 1 + n > data.length) .invalidParam
    let piv ← slice data 1 (1 + n)
    failIf ((OscoreSeqNum.fromPiv piv).isNone) .invalidParam
    return (piv, 1 + n)
  else
    return ([], 1)

/-- The length-prefixed KID context from position `pos`. -/
def parseKidContext (data : Bytes) (pos : Nat) (hFlag : Bool) :
    Outcome OscoreError (Bytes × Nat) :=
  if hFlag then do
    failIf (pos ≥ data.length) .invalidParam
    let s := (← index data pos).toNat
    let pos := pos + 1
    failIf (s > idContextCapacity ∨ pos + s > data.length) .invalidParam
    let kidContext ← slice data pos (pos + s)
    return (kidContext, pos + s)
  else
    return ([], pos)

/-- The KID is the whole remainder, and only with the k flag. -/
def parseKid (data : Bytes) (pos : Nat) (kFlag : Bool) :
    Outcome OscoreError Bytes :=
  if kFlag then do
    let kid ← sliceFrom data pos
    failIf (kid.length > nonceIdLen) .invalidParam
    return kid
  else do
    failIf (pos ≠ data.length) .invalidParam
    return []

def parseOption (data : Bytes) : Outcome OscoreError OscoreOption :=
  if data = [] then
    return ⟨[], [], false, [], false⟩
  else if data = [0] then
    throw (.err .invalidParam)
  else do
    let flags ← index data 0
    failIf (flags &&& 0xe0 ≠ 0) .invalidParam
    let hFlag := decide (flags &&& 0x10 ≠ 0)
    let kFlag := decide (flags &&& 0x08 ≠ 0)
    let n := (flags &&& 0x07).toNat
    let (piv, pos) ← parsePiv data n
    let (kidContext, pos) ← parseKidContext data pos hFlag
    let kid ← parseKid data pos kFlag
    return ⟨piv, kidContext, hFlag, kid, kFlag⟩

/-- The closure of `parse_inner_body` that reads one delta or length nibble; it
returns the value and the advanced cursor. -/
def decodeNibble (data : Bytes) (pos : Nat) (nibble : UInt8) :
    Outcome OscoreError (Nat × Nat) :=
  if nibble ≤ 12 then
    return (nibble.toNat, pos)
  else if nibble = 13 then do
    let value ← okOr data[pos]? .invalidParam
    return (13 + value.toNat, pos + 1)
  else if nibble = 14 then do
    let high ← okOr data[pos]? .invalidParam
    let low ← okOr data[pos + 1]? .invalidParam
    return (269 + (high.toNat * 256 + low.toNat), pos + 2)
  else
    throw (.err .invalidParam)

/-- One round of `parse_inner_body` behind the header byte: the end of the
option and the new option number. -/
def innerOption (data : Bytes) (pos optionNumber : Nat) (header : UInt8) :
    Outcome OscoreError (Nat × Nat) := do
  let (delta, pos) ← decodeNibble data pos (header >>> 4)
  let (length, pos) ← decodeNibble data pos (header &&& 0x0f)
  failIf (delta > 0xffff) .invalidParam
  failIf (optionNumber + delta > 0xffff) .invalidParam
  failIf (pos + length > data.length) .invalidParam
  return (pos + length, optionNumber + delta)

theorem decodeNibble_cursor {data : Bytes} {pos value next : Nat}
    {nibble : UInt8} (h : decodeNibble data pos nibble = .ok (value, next)) :
    pos ≤ next := by
  unfold decodeNibble at h
  split at h
  · simp only [Outcome.pure_eq_ok, Except.ok.injEq, Prod.mk.injEq] at h
    omega
  · split at h
    · obtain ⟨_, _, h⟩ := Outcome.bind_eq_ok.mp h
      simp only [Outcome.pure_eq_ok, Except.ok.injEq, Prod.mk.injEq] at h
      omega
    · split at h
      · obtain ⟨_, _, h⟩ := Outcome.bind_eq_ok.mp h
        obtain ⟨_, _, h⟩ := Outcome.bind_eq_ok.mp h
        simp only [Outcome.pure_eq_ok, Except.ok.injEq, Prod.mk.injEq] at h
        omega
      · simp at h

theorem innerOption_cursor {data : Bytes} {pos number next number' : Nat}
    {header : UInt8}
    (h : innerOption data pos number header = .ok (next, number')) :
    pos ≤ next := by
  obtain ⟨⟨delta, pos₁⟩, hdelta, h⟩ := Outcome.bind_eq_ok.mp h
  obtain ⟨⟨length, pos₂⟩, hlength, h⟩ := Outcome.bind_eq_ok.mp h
  obtain ⟨_, _, h⟩ := Outcome.bind_eq_ok.mp h
  obtain ⟨_, _, h⟩ := Outcome.bind_eq_ok.mp h
  obtain ⟨_, _, h⟩ := Outcome.bind_eq_ok.mp h
  simp only [Outcome.pure_eq_ok, Except.ok.injEq, Prod.mk.injEq] at h
  have h₁ := decodeNibble_cursor hdelta
  have h₂ := decodeNibble_cursor hlength
  omega

/-- The loop of `parse_inner_body`, standing at option boundary `pos`. -/
def innerBodyFrom (data : Bytes) (pos optionNumber : Nat) :
    Outcome OscoreError (Bytes × Bytes) :=
  match _hheader : data[pos]? with
  | none => return (data, [])
  | some header =>
      if header = 0xff then
        if pos + 1 = data.length then throw (.err .invalidParam)
        else return (data.take pos, data.drop (pos + 1))
      else
        match _hoption : innerOption data (pos + 1) optionNumber header with
        | .error fault => .error fault
        | .ok (next, number) => innerBodyFrom data next number
termination_by data.length - pos
decreasing_by
  have hlt := (List.getElem?_eq_some_iff.mp _hheader).1
  have := innerOption_cursor _hoption
  omega

/-- Split an inner CoAP body into encoded options and payload. -/
def parseInnerBody (data : Bytes) : Outcome OscoreError (Bytes × Bytes) :=
  innerBodyFrom data 0 0

/-- `u16` addition under the overflow policy of the build profile. -/
def addU16 (C : Crypto) (a b : Nat) : Outcome OscoreError Nat :=
  if a + b < 2 ^ 16 then return a + b
  else if C.overflowChecks then throw .panic
  else return (a + b) % 2 ^ 16

/-- The extended delta of `find_payload_marker`, in 16-bit arithmetic. -/
def markerDelta (C : Crypto) (data : Bytes) (pos : Nat) (nibble : UInt8) :
    Outcome OscoreError (Nat × Nat) :=
  if nibble ≤ 12 then
    return (nibble.toNat, pos)
  else if nibble = 13 then do
    failIf (pos ≥ data.length) .invalidParam
    let delta ← addU16 C (← index data pos).toNat 13
    return (delta, pos + 1)
  else do
    failIf (pos + 1 ≥ data.length) .invalidParam
    let high ← index data pos
    let low ← index data (pos + 1)
    let delta ← addU16 C (high.toNat * 256 + low.toNat) 269
    return (delta, pos + 2)

/-- The extended length of `find_payload_marker`, in `usize` arithmetic. -/
def markerLength (data : Bytes) (pos : Nat) (nibble : UInt8) :
    Outcome OscoreError (Nat × Nat) :=
  if nibble ≤ 12 then
    return (nibble.toNat, pos)
  else if nibble = 13 then do
    failIf (pos ≥ data.length) .invalidParam
    let ext ← index data pos
    return (ext.toNat + 13, pos + 1)
  else do
    failIf (pos + 1 ≥ data.length) .invalidParam
    let high ← index data pos
    let low ← index data (pos + 1)
    return (high.toNat * 256 + low.toNat + 269, pos + 2)

/-- One round of `find_payload_marker` behind the header byte. -/
def markerOption (C : Crypto) (data : Bytes) (pos cumulativeNumber : Nat)
    (first : UInt8) : Outcome OscoreError (Nat × Nat) := do
  let deltaNibble := (first >>> 4) &&& 0x0F
  let lenNibble := first &&& 0x0F
  failIf (deltaNibble = 15) .invalidParam
  failIf (lenNibble = 15) .invalidParam
  let (delta, pos) ← markerDelta C data pos deltaNibble
  failIf (cumulativeNumber + delta > 0xffff) .invalidParam
  let (optLen, pos) ← markerLength data pos lenNibble
  failIf (pos + optLen > data.length) .invalidParam
  return (pos + optLen, cumulativeNumber + delta)

theorem markerDelta_cursor {C : Crypto} {data : Bytes} {pos value next : Nat}
    {nibble : UInt8} (h : markerDelta C data pos nibble = .ok (value, next)) :
    pos ≤ next := by
  unfold markerDelta at h
  split at h
  · simp only [Outcome.pure_eq_ok, Except.ok.injEq, Prod.mk.injEq] at h
    omega
  · split at h <;>
    · simp only [Outcome.bind_eq_ok, Outcome.pure_eq_ok, Except.ok.injEq,
        Prod.mk.injEq] at h
      obtain ⟨_, -, h⟩ := h
      grind

theorem markerLength_cursor {data : Bytes} {pos value next : Nat}
    {nibble : UInt8} (h : markerLength data pos nibble = .ok (value, next)) :
    pos ≤ next := by
  unfold markerLength at h
  split at h
  · simp only [Outcome.pure_eq_ok, Except.ok.injEq, Prod.mk.injEq] at h
    omega
  · split at h <;>
    · simp only [Outcome.bind_eq_ok, Outcome.pure_eq_ok, Except.ok.injEq,
        Prod.mk.injEq] at h
      obtain ⟨_, -, h⟩ := h
      grind

/-- Everything a successful round says: the two extended fields, the bound on
the option number and the value inside the data. -/
theorem markerOption_eq_ok {C : Crypto} {data : Bytes}
    {pos number next number' : Nat} {first : UInt8} :
    markerOption C data pos number first = .ok (next, number') ↔
      (first >>> 4) &&& 0x0F ≠ 15 ∧ first &&& 0x0F ≠ 15 ∧
      ∃ delta pos₁ optLen pos₂,
        markerDelta C data pos ((first >>> 4) &&& 0x0F) = .ok (delta, pos₁) ∧
        markerLength data pos₁ (first &&& 0x0F) = .ok (optLen, pos₂) ∧
        number + delta ≤ 0xffff ∧ next ≤ data.length ∧
        next = pos₂ + optLen ∧ number' = number + delta := by
  simp only [markerOption, Outcome.bind_eq_ok, failIf_eq_ok,
    Outcome.pure_eq_ok, Except.ok.injEq, Prod.mk.injEq, Prod.exists]
  constructor
  · rintro ⟨_, hd, _, hl, delta, pos₁, hdelta, _, hnum, optLen, pos₂, hlen, _,
      hfit, rfl, rfl⟩
    exact ⟨hd, hl, delta, pos₁, optLen, pos₂, hdelta, hlen, by omega,
      by omega, rfl, rfl⟩
  · rintro ⟨hd, hl, delta, pos₁, optLen, pos₂, hdelta, hlen, hnum, hfit, rfl,
      rfl⟩
    exact ⟨(), hd, (), hl, delta, pos₁, hdelta, (), by omega, optLen, pos₂,
      hlen, (), by omega, rfl, rfl⟩

theorem markerOption_cursor {C : Crypto} {data : Bytes}
    {pos number next number' : Nat} {first : UInt8}
    (h : markerOption C data pos number first = .ok (next, number')) :
    pos ≤ next ∧ next ≤ data.length := by
  obtain ⟨-, -, delta, pos₁, optLen, pos₂, hdelta, hlen, -, hfit, hnext, -⟩ :=
    markerOption_eq_ok.mp h
  have h₁ := markerDelta_cursor hdelta
  have h₂ := markerLength_cursor hlen
  omega

/-- The loop of `find_payload_marker`, standing at option boundary `pos`. -/
def findPayloadMarkerFrom (C : Crypto) (data : Bytes)
    (pos cumulativeNumber : Nat) : Outcome OscoreError (Option Nat) :=
  match _hfirst : data[pos]? with
  | none => return none
  | some first =>
      if first = 0xFF then
        return some pos
      else
        match _hoption : markerOption C data (pos + 1) cumulativeNumber first with
        | .error fault => .error fault
        | .ok (next, number) => findPayloadMarkerFrom C data next number
termination_by data.length - pos
decreasing_by
  have hlt := (List.getElem?_eq_some_iff.mp _hfirst).1
  have := markerOption_cursor _hoption
  omega

def findPayloadMarker (C : Crypto) (optionsAndPayload : Bytes) :
    Outcome OscoreError (Option Nat) :=
  findPayloadMarkerFrom C optionsAndPayload 0 0

end Oscore
