/-!
# Content fingerprints

A fingerprint is a 64-bit number computed from the bytes of a text. Equal
contents have equal fingerprints, and two different contents a reload has to
tell apart are assumed to have different ones. The bytes are folded sixteen at
a time into two words by a multiplication whose halves are combined, and the
last sixteen bytes and the length close the sum.
-/

namespace BuildWatch.Text

namespace Fingerprint

/-- The number that bytes stand for, the lowest byte first. -/
def littleEndian (bytes : List UInt8) : UInt64 :=
  bytes.foldr (fun byte value => (value <<< 8) ||| byte.toUInt64) 0

/-- Both halves of the double-width product, combined into one word. -/
def mix (left right : UInt64) : UInt64 :=
  let product := left.toNat * right.toNat
  UInt64.ofNat product ^^^ UInt64.ofNat (product >>> 64)

/-- The two words before any byte was read. -/
def start : UInt64 × UInt64 := (0x243f6a8885a308d3, 0x13198a2e03707344)

/-- The word that keeps zero bytes from erasing the sum. -/
def guardWord : UInt64 := 0xa4093822299f31d0

/-- Fold in all blocks of sixteen bytes that leave at least one byte behind. -/
def foldBlocks (bytes : List UInt8) (words : UInt64 × UInt64) : UInt64 × UInt64 :=
  if 16 < bytes.length then
    let low := littleEndian (bytes.take 8)
    let high := littleEndian ((bytes.drop 8).take 8)
    foldBlocks (bytes.drop 16) (words.2, mix (words.1 ^^^ low) (guardWord ^^^ high))
  else words
termination_by bytes.length
decreasing_by simp only [List.length_drop]; omega

/-- The two words that close the sum: the ends of the content, overlapping when it is short. -/
def ends (bytes : List UInt8) : UInt64 × UInt64 :=
  let size := bytes.length
  if 16 < size then
    let last := bytes.drop (size - 16)
    (littleEndian (last.take 8), littleEndian (last.drop 8))
  else if 8 ≤ size then
    (littleEndian (bytes.take 8), littleEndian (bytes.drop (size - 8)))
  else if 4 ≤ size then
    (littleEndian (bytes.take 4), littleEndian (bytes.drop (size - 4)))
  else
    match bytes[0]?, bytes[size / 2]?, bytes.getLast? with
    | some first, some middle, some last => (first.toUInt64, littleEndian [middle, last])
    | _, _, _ => (0, 0)

/-- One word for a byte list. -/
def digest (bytes : List UInt8) : UInt64 :=
  let words := foldBlocks bytes start
  let closing := ends bytes
  mix (words.1 ^^^ closing.1) (words.2 ^^^ closing.2) ^^^ UInt64.ofNat bytes.length

end Fingerprint

/-- The fingerprint of a byte list. The last two steps permute the words, so
contents with different digests have different fingerprints. -/
def fingerprint (bytes : List UInt8) : UInt64 :=
  let spread := Fingerprint.digest bytes * 0xf1357aea2e62a9c5
  (spread <<< 26) ||| (spread >>> 38)

end BuildWatch.Text
