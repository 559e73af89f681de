import Unjar.Shell.Text

namespace Unjar.Shell

/-- The classes of characters that have names. They hold ASCII characters only. -/
inductive CharClass where
  | alnum | alpha | blank | cntrl | digit | graph | lower | print | punct | space | upper | xdigit
  deriving DecidableEq

namespace CharClass

def name : CharClass → String
  | alnum => "alnum"
  | alpha => "alpha"
  | blank => "blank"
  | cntrl => "cntrl"
  | digit => "digit"
  | graph => "graph"
  | lower => "lower"
  | print => "print"
  | punct => "punct"
  | space => "space"
  | upper => "upper"
  | xdigit => "xdigit"

def all : List CharClass :=
  [alnum, alpha, blank, cntrl, digit, graph, lower, print, punct, space, upper, xdigit]

def isGraph (c : Char) : Bool := 33 ≤ c.toNat && c.toNat ≤ 126

def contains : CharClass → Char → Bool
  | alnum, c => c.isAlphanum
  | alpha, c => c.isAlpha
  | blank, c => isBlank c
  | cntrl, c => c.toNat < 32 || c.toNat = 127
  | digit, c => c.isDigit
  | graph, c => isGraph c
  | lower, c => c.isLower
  | print, c => c = ' ' || isGraph c
  | punct, c => isGraph c && !c.isAlphanum
  | space, c => isSpace c
  | upper, c => c.isUpper
  | xdigit, c => isDigitIn 16 c

/-- The class that is named at the front, written as `[:name:]` without the first bracket, and the rest. -/
def atFront? (text : Text) : Option (CharClass × Text) :=
  all.findSome? fun k =>
    let written := s!":{k.name}:]".toList
    if written.isPrefixOf text then some (k, text.drop written.length) else none

end CharClass

end Unjar.Shell
