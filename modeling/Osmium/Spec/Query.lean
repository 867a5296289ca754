import Osmium.Lib.Json
import Osmium.Spec.Canonical
import Osmium.Spec.Timestamp

/-! Queries to the archive and the identities their responses are kept under. -/

namespace Osmium
open Machine Bytes Result

/-- The market as the archive names it, which tells options from futures. -/
inductive ArchiveMarket | twse | tpex | taifexFutures | taifexOptions
deriving DecidableEq

namespace ArchiveMarket

def discriminant : ArchiveMarket → UInt8
  | .twse => 1
  | .tpex => 2
  | .taifexFutures => 3
  | .taifexOptions => 4

def forInstrument (instrument : InstrumentId) : ArchiveMarket :=
  match instrument.market with
  | .twse => .twse
  | .tpex => .tpex
  | .taifex => .taifexFutures

/-- twse, tpex, taifex_fut, taifex_opt -/
def wireMarket : ArchiveMarket → Text
  | .twse => ⟨[116, 119, 115, 101], by decide⟩
  | .tpex => ⟨[116, 112, 101, 120], by decide⟩
  | .taifexFutures => ⟨[116, 97, 105, 102, 101, 120, 95, 102, 117, 116], by decide⟩
  | .taifexOptions => ⟨[116, 97, 105, 102, 101, 120, 95, 111, 112, 116], by decide⟩

end ArchiveMarket

inductive ArchiveKind | quote | book | close | stats | trade
deriving DecidableEq

namespace ArchiveKind

def discriminant : ArchiveKind → UInt8
  | .quote => 1
  | .book => 2
  | .close => 3
  | .stats => 4
  | .trade => 5

/-- quote, book, close, stats, trade -/
def slug : ArchiveKind → Text
  | .quote => ⟨[113, 117, 111, 116, 101], by decide⟩
  | .book => ⟨[98, 111, 111, 107], by decide⟩
  | .close => ⟨[99, 108, 111, 115, 101], by decide⟩
  | .stats => ⟨[115, 116, 97, 116, 115], by decide⟩
  | .trade => ⟨[116, 114, 97, 100, 101], by decide⟩

end ArchiveKind

/-- A time in the text it was given in. -/
structure ArchiveTimestamp where
  exactText : Text
  utc : MatchTime
  parsed : MatchTime.parse exactText.bytes = .ok utc
deriving DecidableEq

inductive TeralionQuery
  | coverage (first last : TradingDate)
  | symbolRange (instrument : InstrumentId)
  | ticks (instrument : InstrumentId) (first last : ArchiveTimestamp) (kinds : List ArchiveKind)
      (limit : U16)
      (archiveMarket : Option ArchiveMarket)
  | dailyInstrument (instrument : InstrumentId) (tradingDate : TradingDate)
deriving DecidableEq

namespace TeralionQuery

def isPaged : TeralionQuery → Bool
  | .ticks .. => true
  | _ => false

/-- The length is cut to 32 bits. -/
def appendText (value : Text) : List UInt8 :=
  ofUnsigned 4 (Unsigned.wrap 32 value.bytes.length) ++ value.bytes

def appendInstrument (instrument : InstrumentId) : List UInt8 :=
  instrument.market.discriminant :: appendText instrument.symbol.text

/-- Led by OSTQ and the interface version. -/
def canonicalBytes (self : TeralionQuery) : List UInt8 :=
  [79, 83, 84, 81, 0, 1] ++ match self with
    | .coverage first last => 1 :: first.toCanonicalBytes ++ last.toCanonicalBytes
    | .symbolRange instrument => 2 :: appendInstrument instrument
    | .ticks instrument first last kinds limit archiveMarket =>
      3 :: appendInstrument instrument ++ appendText first.exactText ++ appendText last.exactText ++
        ofUnsigned 4 (Unsigned.wrap 32 kinds.length) ++ kinds.map ArchiveKind.discriminant ++
          ofUnsigned 2 limit ++
        match archiveMarket with
        | some archiveMarket => [1, archiveMarket.discriminant]
        | none => []
    | .dailyInstrument instrument tradingDate =>
      4 :: appendInstrument instrument ++ tradingDate.toCanonicalBytes

def identity (hash : List UInt8 → Digest) (self : TeralionQuery) : Digest :=
  hash self.canonicalBytes

end TeralionQuery

end Osmium
