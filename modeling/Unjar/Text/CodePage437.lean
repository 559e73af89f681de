import Unjar.Bytes

namespace Unjar.CodePage437

/-- The characters of the octets from 0x80 on, in order. -/
def upperHalf : List Char :=
  "ÇüéâäàåçêëèïîìÄÅÉæÆôöòûùÿÖÜ¢£¥₧ƒáíóúñÑªº¿⌐¬½¼¡«»░▒▓│┤╡╢╖╕╣║╗╝╜╛┐└┴┬├─┼╞╟╚╔╩╦╠═╬╧╨╤╥╙╘╒╓╫╪┘┌█▄▌▐▀αßΓπΣσµτΦΘΩδ∞φε∩≡±≥≤⌠⌡÷≈°∙·√ⁿ²■\u00A0".toList

def char (octet : UInt8) : Char :=
  if octet < 0x80 then Char.ofNat octet.toNat
  else upperHalf.getD (octet.toNat - 0x80) ' '

/-- Code page 437 rewritten in UTF-8. Every octet is a character there, so nothing is refused. -/
def toUtf8 (bytes : Bytes) : Bytes :=
  bytes.flatMap fun octet => String.utf8EncodeChar (char octet)

end Unjar.CodePage437
