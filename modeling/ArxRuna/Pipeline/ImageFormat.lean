import ArxRuna.Library.Framing
import ArxRuna.Pipeline.Exif
namespace ArxRuna.Pipeline.ImageFormat
open Library.Aead Library.Framing Pipeline.Exif

-- What the format says, to compare `strip_exif` with: a JPEG is SOI and then fill
-- bytes, markers that stand alone, segments with a length and scans, up to EOI. A
-- scan is its header and the entropy-coded data up to the next marker.
inductive JpegItem where
  | fill
  | standAlone (marker : UInt8)
  | segment (marker high low : UInt8) (content : Bytes)
  | scan (high low : UInt8) (header entropy : Bytes)
  deriving DecidableEq, Repr

def JpegItem.bytes : JpegItem → Bytes
  | .fill => [0xFF]
  | .standAlone marker => [0xFF,marker]
  | .segment marker high low content => 0xFF :: marker :: high :: low :: content
  | .scan high low header entropy => 0xFF :: 0xDA :: high :: low :: (header ++ entropy)

-- TEM, RST0 to RST7 and a repeated SOI.
def standsAlone (marker : UInt8) : Bool := marker = 0x01 || (0xD0 ≤ marker && marker ≤ 0xD8)

def restart (marker : UInt8) : Bool := 0xD0 ≤ marker && marker ≤ 0xD7

def segLen (high low : UInt8) : Nat := high.toNat * 256 + low.toNat

-- An `FF` belongs to a scan only with the `00` stuffed behind it or as a restart.
def inScan (first : UInt8) (rest : Bytes) : Bool :=
  first ≠ 0xFF || rest.head?.any fun marker => marker = 0x00 || restart marker

def readEntropy : Bytes → Bytes × Bytes
  | [] => ([],[])
  | first :: rest =>
    if inScan first rest then (first :: (readEntropy rest).1,(readEntropy rest).2) else ([],first :: rest)

def readSegment (marker : UInt8) : Bytes → Option (JpegItem × Bytes)
  | high :: low :: body =>
    if 2 ≤ segLen high low ∧ segLen high low - 2 ≤ body.length then
      let content := body.take (segLen high low - 2)
      let later := body.drop (segLen high low - 2)
      if marker = 0xDA then some (.scan high low content (readEntropy later).1,(readEntropy later).2)
      else some (.segment marker high low content,later)
    else none
  | _ => none

-- EOI ends the image; `FF 00` is no marker.
def nextItem : Bytes → Option (JpegItem × Bytes)
  | first :: marker :: rest =>
    if first ≠ 0xFF then none
    else if marker = 0xFF then some (.fill,marker :: rest)
    else if standsAlone marker then some (.standAlone marker,rest)
    else if marker = 0x00 ∨ marker = 0xD9 then none
    else readSegment marker rest
  | _ => none

theorem read_segment_cons : readSegment marker (high :: low :: body) =
    if 2 ≤ segLen high low ∧ segLen high low - 2 ≤ body.length then
      if marker = 0xDA then
        some (.scan high low (body.take (segLen high low - 2)) (readEntropy (body.drop (segLen high low - 2))).1,
          (readEntropy (body.drop (segLen high low - 2))).2)
      else some (.segment marker high low (body.take (segLen high low - 2)),body.drop (segLen high low - 2))
    else none := rfl

theorem read_entropy_cons : readEntropy (first :: rest) =
    if inScan first rest then (first :: (readEntropy rest).1,(readEntropy rest).2) else ([],first :: rest) := rfl

theorem entropy_bytes (rest : Bytes) : (readEntropy rest).1 ++ (readEntropy rest).2 = rest := by
  induction rest with
  | nil => rfl
  | cons first rest ih =>
    rw [read_entropy_cons]
    split
    · rw [List.cons_append,ih]
    · rfl

theorem segment_bytes (found : readSegment marker rest = some (item,later)) : 0xFF :: marker :: rest = item.bytes ++ later := by
  match rest with
  | [] => cases found
  | [_] => cases found
  | high :: low :: body =>
    rw [read_segment_cons] at found
    split at found
    · split at found
      · rename_i scan
        cases found
        have whole := body.take_append_drop (segLen high low - 2)
        rw [← entropy_bytes (body.drop (segLen high low - 2))] at whole
        simp only [JpegItem.bytes,List.cons_append,List.append_assoc,whole,scan]
      · cases found
        simp [JpegItem.bytes]
    · cases found

theorem item_bytes (found : nextItem rest = some (item,later)) : rest = item.bytes ++ later := by
  unfold nextItem at found
  split at found
  · split at found
    · cases found
    · rename_i marked
      rw [Decidable.not_not] at marked
      subst marked
      split at found
      · rename_i fills
        cases found
        rw [fills]
        rfl
      · split at found
        · cases found
          rfl
        · split at found
          · cases found
          · exact segment_bytes found
  · cases found

def jpeg : Frames UInt8 JpegItem where
  next := nextItem
  bytes := JpegItem.bytes
  next_bytes := item_bytes
  bytes_nonempty item := by cases item <;> simp [JpegItem.bytes]

def droppedItem : JpegItem → Bool
  | .segment marker _ _ _ => droppedMarker marker
  | _ => false

-- A PNG is its signature and then chunks: length, type, data and checksum.
structure PngChunk where
  size : Bytes
  kind : Bytes
  content : Bytes
  crc : Bytes
  sizeFits : size.length = 4
  kindFits : kind.length = 4
  crcFits : crc.length = 4
  counted : fromBeBytes size = content.length

def PngChunk.bytes (chunk : PngChunk) : Bytes := chunk.size ++ (chunk.kind ++ (chunk.content ++ chunk.crc))

def nextChunk (rest : Bytes) : Option (PngChunk × Bytes) :=
  if room : 12 ≤ rest.length ∧ 12 + fromBeBytes (rest.take 4) ≤ rest.length then
    let count := fromBeBytes (rest.take 4)
    some (⟨rest.take 4,(rest.drop 4).take 4,(rest.drop 8).take count,(rest.drop (8 + count)).take 4,
      by rw [List.length_take]; omega,by rw [List.length_take,List.length_drop]; omega,
      by rw [List.length_take,List.length_drop]; omega,by rw [List.length_take,List.length_drop]; omega⟩,
      rest.drop (12 + count))
  else none

theorem chunk_bytes (found : nextChunk rest = some (chunk,later)) : rest = chunk.bytes ++ later := by
  unfold nextChunk at found
  split at found
  · cases found
    have split (n k : Nat) : rest.drop n = (rest.drop n).take k ++ rest.drop (n + k) := by
      rw [← List.drop_drop,List.take_append_drop]
    have content := split 8 (fromBeBytes (rest.take 4))
    have crc := split (8 + fromBeBytes (rest.take 4)) 4
    rw [Nat.add_right_comm] at crc
    have kind := split 4 4
    rw [PngChunk.bytes,List.append_assoc,List.append_assoc,List.append_assoc]
    dsimp only
    rw [← crc,← content,← kind,List.take_append_drop]
  · cases found

def png : Frames UInt8 PngChunk where
  next := nextChunk
  bytes := PngChunk.bytes
  next_bytes := chunk_bytes
  bytes_nonempty chunk := by
    intro none
    have := chunk.sizeFits
    have length := congrArg List.length none
    rw [PngChunk.bytes,List.length_append,List.length_nil] at length
    omega

def droppedChunk (chunk : PngChunk) : Bool := droppedChunks.any (· = chunk.kind)

def JpegItem.Proper : JpegItem → Prop
  | .fill => True
  | .standAlone marker => standsAlone marker = true
  | .segment marker high low content => marker ≠ 0xFF ∧ standsAlone marker = false ∧
    ¬ (marker = 0x00 ∨ marker = 0xD9 ∨ marker = 0xDA) ∧ segLen high low = content.length + 2
  | .scan high low header entropy => segLen high low = header.length + 2 ∧ (readEntropy entropy).2 = []

-- A JPEG as the format has it. A restart right after a scan belongs to the scan.
structure Jpeg where
  items : List JpegItem
  proper : ∀ item ∈ items, item.Proper
  apart : ∀ {front high low header entropy marker back},
    items = front ++ .scan high low header entropy :: .standAlone marker :: back → restart marker = false

def eoi : Bytes := [0xFF,0xD9]

def Jpeg.bytes (image : Jpeg) : Bytes := [0xFF,0xD8] ++ (jpeg.encode image.items ++ eoi)

def Jpeg.stripped (image : Jpeg) : Bytes :=
  [0xFF,0xD8] ++ (jpeg.encode (image.items.filter (!droppedItem ·)) ++ eoi)

structure Png where
  chunks : List PngChunk

def signature : Bytes := [0x89,0x50,0x4E,0x47,0x0D,0x0A,0x1A,0x0A]

def Png.bytes (image : Png) : Bytes := signature ++ png.encode image.chunks

def Png.stripped (image : Png) : Bytes := signature ++ png.encode (image.chunks.filter (!droppedChunk ·))

-- Nothing but metadata segments or chunks is missing from what is stored.
def Spared (content stored : Bytes) : Prop :=
  if isJpeg content then ∃ rest, stored = content.take 2 ++ rest ∧ jpeg.Spared droppedItem (content.drop 2) rest
  else if isPng content then ∃ rest, stored = content.take 8 ++ rest ∧ png.Spared droppedChunk (content.drop 8) rest
  else stored = content

end ArxRuna.Pipeline.ImageFormat
