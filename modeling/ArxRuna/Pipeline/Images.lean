import ArxRuna.Pipeline.ImageFormat
import ArxRuna.Vault.Transfer
namespace ArxRuna.Pipeline.Images
open Library.Aead Library.Framing Pipeline.Exif Pipeline.ImageFormat
open Vault.Transfer (stripExifIfImage storedContent strip_if_image)

-- Markers whose segments have a length.
def measured (marker : UInt8) : Prop := marker ≠ 0x00 ∧ marker ≠ 0xD9 ∧ ¬ (0xD0 ≤ marker ∧ marker ≤ 0xD8)

-- Whether the loop keeps a marker with what follows it where no item can be read.
def segmentSurvives (marker : UInt8) : Bytes → Bool
  | high :: low :: body =>
    if marker = 0xDA then segLen high low ≤ body.length + 2
    else segLen high low < 2 ∧ droppedMarker marker = false ∧ (segLen high low = 1 → body ≠ [])
  | _ => false

def markerSurvives (marker : UInt8) (rest : Bytes) : Bool :=
  if marker = 0x00 then false else if marker = 0xD9 then rest = [] else segmentSurvives marker rest

-- Whether it keeps what is left after the last item.
def survives : Bytes → Bool
  | [] => true
  | [_] => false
  | first :: marker :: rest => if first = 0xFF then markerSurvives marker rest else true

end ArxRuna.Pipeline.Images
