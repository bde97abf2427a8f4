import Mathlib.Data.List.Basic

/-! Bandplan policy: which frequency and operating mode a station may use. Bands
and digital segments are closed ranges, and the first row that contains the
frequency decides. Region 1 and Region 3 read the shared base tables; Region 2
only widens the 20 m segment. -/
namespace OpenPulse.Bandplan

inductive BandplanMode where
  | hamIaru | hamIaruRegion1 | hamIaruRegion2 | hamIaruRegion3
  deriving DecidableEq, Repr

inductive BandplanWarning where
  | region3UsesRegion1Proxy
  deriving DecidableEq, Repr

inductive BandplanError where
  | unknownMode (value : String)
  | frequencyOutOfBand (freqHz : UInt64) (mode : String)
  | segmentViolation (freqHz : UInt64) (mode : String)
  | unknownOperatingMode (mode : String)
  | channelWidthExceeded (mode : String) (requiredHz maxHz : UInt32)
  deriving DecidableEq, Repr

def BandplanError.message : BandplanError → String
  | .unknownMode value => "unknown bandplan mode: " ++ value
  | .frequencyOutOfBand freqHz mode =>
    "frequency " ++ toString freqHz ++ " Hz is outside supported amateur HF bands for " ++ mode
  | .segmentViolation freqHz mode =>
    "frequency " ++ toString freqHz ++ " Hz is outside allowed digital segment for " ++ mode
  | .unknownOperatingMode mode => "unknown modulation mode for bandwidth checks: " ++ mode
  | .channelWidthExceeded mode requiredHz maxHz =>
    "mode " ++ mode ++ " requires ~" ++ toString requiredHz ++
      " Hz occupied bandwidth, exceeds policy limit " ++ toString maxHz ++ " Hz"

structure BandplanPolicy where
  awarenessEnabled : Bool := true
  mode : BandplanMode := .hamIaruRegion1
  enforceMaxChannelWidth : Bool := true
  enforceSegmentConventions : Bool := true
  deriving DecidableEq, Repr

inductive ItuRegion where
  | region1 | region2 | region3
  deriving DecidableEq, Repr

def ItuRegion.modeString : ItuRegion → String
  | .region1 => "ham-iaru-r1"
  | .region2 => "ham-iaru-r2"
  | .region3 => "ham-iaru-r3"

/-- A row of the band table or of the segment table; the source has one struct for each. -/
structure Allocation where
  minHz : UInt64
  maxHz : UInt64
  maxBwHz : UInt32
  deriving DecidableEq, Repr

def Allocation.contains (a : Allocation) (freqHz : UInt64) : Bool := decide (a.minHz ≤ freqHz ∧ freqHz ≤ a.maxHz)

def occupiedBandwidthHz (mode : String) : Option UInt32 :=
  match mode with
  | "BPSK31" => some 100
  | "BPSK63" => some 150
  | "BPSK100" => some 200
  | "BPSK250" => some 500
  | "BPSK250-RRC" => some 350
  | "QPSK125" => some 350
  | "QPSK250" => some 700
  | "QPSK500" => some 1400
  | "QPSK500-RRC" => some 675
  | "QPSK1000" => some 2800
  | "QPSK1000-HF" | "QPSK1000-HF-RRC" => some 1350
  | "QPSK2000" => some 5600
  | "QPSK9600" | "QPSK9600-RRC" => some 12000
  | "8PSK500" => some 1500
  | "8PSK500-RRC" => some 675
  | "8PSK1000" | "8PSK1000-HF" => some 3000
  | "8PSK1000-RRC" | "8PSK1000-HF-RRC" => some 1350
  | "8PSK2000" => some 6000
  | "8PSK2000-RRC" => some 2700
  | "8PSK9600" | "8PSK9600-RRC" => some 12000
  | "64QAM500" => some 1600
  | "64QAM1000" => some 3200
  | "64QAM2000-RRC" => some 6400
  | "OFDM16" => some 2200
  | "OFDM52" => some 3200
  | "SCFDMA16" => some 2200
  | "SCFDMA52" | "SCFDMA52-64QAM-P4" => some 3200
  | "FSK4-ACK" => some 400
  | _ => none

def hamIaruBands : List Allocation :=
  [⟨1800000,2000000,2700⟩, ⟨3500000,4000000,2700⟩, ⟨7000000,7300000,2700⟩, ⟨10100000,10150000,500⟩,
    ⟨14000000,14350000,2700⟩, ⟨18068000,18168000,2700⟩, ⟨21000000,21450000,2700⟩, ⟨24890000,24990000,2700⟩,
    ⟨28000000,29700000,2700⟩]

def sharedBaseDigitalSegments : List Allocation :=
  [⟨1838000,1843000,2700⟩, ⟨3570000,3600000,2700⟩, ⟨7040000,7125000,2700⟩, ⟨10130000,10150000,500⟩,
    ⟨14070000,14112000,2700⟩, ⟨18100000,18110000,2700⟩, ⟨21070000,21149000,2700⟩, ⟨24920000,24929000,2700⟩,
    ⟨28070000,28190000,2700⟩]

def region2Wide20m : Allocation := ⟨14070000,14150000,2700⟩

def labelledBands : List (UInt64 × UInt64 × String) :=
  [(1800000,2000000,"160m"), (3500000,4000000,"80m"), (5330000,5410000,"60m"), (7000000,7300000,"40m"),
    (10100000,10150000,"30m"), (14000000,14350000,"20m"), (18068000,18168000,"17m"), (21000000,21450000,"15m"),
    (24890000,24990000,"12m"), (28000000,29700000,"10m"), (50000000,54000000,"6m"), (144000000,148000000,"2m"),
    (222000000,225000000,"1.25m"), (420000000,450000000,"70cm")]

def bandLabelForHz (freqHz : UInt64) : Option String :=
  (labelledBands.find? fun band => decide (band.1 ≤ freqHz ∧ freqHz ≤ band.2.1)).map (·.2.2)

def findHamIaruBand (freqHz : UInt64) : Option Allocation := hamIaruBands.find? (·.contains freqHz)
def findHamIaruSegment (freqHz : UInt64) : Option Allocation := sharedBaseDigitalSegments.find? (·.contains freqHz)

def findRegion1Band (freqHz : UInt64) : Option Allocation := findHamIaruBand freqHz
def findRegion2Band (freqHz : UInt64) : Option Allocation := findHamIaruBand freqHz
def findRegion3Band (freqHz : UInt64) : Option Allocation := findHamIaruBand freqHz

def findRegion1Segment (freqHz : UInt64) : Option Allocation := sharedBaseDigitalSegments.find? (·.contains freqHz)
def findRegion2Segment (freqHz : UInt64) : Option Allocation :=
  if region2Wide20m.contains freqHz then some region2Wide20m
  else sharedBaseDigitalSegments.find? (·.contains freqHz)
def findRegion3Segment (freqHz : UInt64) : Option Allocation := findRegion1Segment freqHz

def findBandForRegion (freqHz : UInt64) : ItuRegion → Option Allocation
  | .region1 => findRegion1Band freqHz
  | .region2 => findRegion2Band freqHz
  | .region3 => findRegion3Band freqHz

def findSegmentForRegion (freqHz : UInt64) : ItuRegion → Option Allocation
  | .region1 => findRegion1Segment freqHz
  | .region2 => findRegion2Segment freqHz
  | .region3 => findRegion3Segment freqHz

/- `validate_ham_iaru_base` and `validate_iaru_region` are one check over the
band and the segment their tables give, reported under their own mode name. -/
def validateAllocation (band segment : Option Allocation) (modeName : String) (freqHz : UInt64) (operatingMode : String)
    (enforceSegments enforceWidth : Bool) : Except BandplanError Unit := do
  let band ← band.elim (.error (.frequencyOutOfBand freqHz modeName)) .ok
  let maxBwHz ←
    if enforceSegments then segment.elim (.error (.segmentViolation freqHz modeName)) (fun s => .ok s.maxBwHz)
    else .ok band.maxBwHz
  if enforceWidth then
    let bw ← (occupiedBandwidthHz operatingMode).elim (.error (.unknownOperatingMode operatingMode)) .ok
    if bw > maxBwHz then .error (.channelWidthExceeded operatingMode bw maxBwHz) else .ok ()
  else .ok ()

def validateHamIaruBase (freqHz : UInt64) (operatingMode : String) (enforceSegments enforceWidth : Bool) :
    Except BandplanError Unit :=
  validateAllocation (findHamIaruBand freqHz) (findHamIaruSegment freqHz) "ham-iaru" freqHz operatingMode
    enforceSegments enforceWidth

def validateIaruRegion (freqHz : UInt64) (operatingMode : String) (region : ItuRegion)
    (enforceSegments enforceWidth : Bool) : Except BandplanError Unit :=
  validateAllocation (findBandForRegion freqHz region) (findSegmentForRegion freqHz region) region.modeString freqHz
    operatingMode enforceSegments enforceWidth

def BandplanPolicy.validateFrequencyWithWarnings (p : BandplanPolicy) (freqHz : UInt64) (operatingMode : String) :
    Except BandplanError (List BandplanWarning) :=
  if !p.awarenessEnabled then .ok []
  else
    match p.mode with
    | .hamIaru => do
      validateHamIaruBase freqHz operatingMode p.enforceSegmentConventions p.enforceMaxChannelWidth
      .ok []
    | .hamIaruRegion1 => do
      validateIaruRegion freqHz operatingMode .region1 p.enforceSegmentConventions p.enforceMaxChannelWidth
      .ok []
    | .hamIaruRegion2 => do
      validateIaruRegion freqHz operatingMode .region2 p.enforceSegmentConventions p.enforceMaxChannelWidth
      .ok []
    | .hamIaruRegion3 => do
      validateIaruRegion freqHz operatingMode .region3 p.enforceSegmentConventions p.enforceMaxChannelWidth
      .ok [.region3UsesRegion1Proxy]

def BandplanPolicy.validateFrequency (p : BandplanPolicy) (freqHz : UInt64) (operatingMode : String) :
    Except BandplanError Unit :=
  (p.validateFrequencyWithWarnings freqHz operatingMode).map fun _ => ()

theorem validateAllocationBand {band segment : Option Allocation} {modeName operatingMode : String} {freqHz : UInt64}
    {enforceSegments enforceWidth : Bool}
    (ok : validateAllocation band segment modeName freqHz operatingMode enforceSegments enforceWidth = .ok ()) :
    ∃ b, band = some b := by
  cases band with
  | none => simp [validateAllocation, bind, Except.bind] at ok
  | some b => exact ⟨b,rfl⟩

theorem checkedBeforeWarnings {ε α : Type} {check : Except ε Unit} {warnings : α}
    (ok : ((check >>= fun _ => .ok warnings).map fun _ => ()) = .ok ()) : check = .ok () := by
  cases check with
  | error e => simp [bind, Except.bind, Except.map] at ok
  | ok u => rfl

theorem validateFrequencyInBand {p : BandplanPolicy} {freqHz : UInt64} {operatingMode : String}
    (aware : p.awarenessEnabled = true) (ok : p.validateFrequency freqHz operatingMode = .ok ()) :
    ∃ band ∈ hamIaruBands, band.contains freqHz = true := by
  have found : ∃ band, findHamIaruBand freqHz = some band := by
    unfold BandplanPolicy.validateFrequency BandplanPolicy.validateFrequencyWithWarnings at ok
    simp only [aware, Bool.not_true, Bool.false_eq_true, if_false] at ok
    cases mode : p.mode with
    | hamIaru =>
      rw [mode] at ok
      exact validateAllocationBand (checkedBeforeWarnings ok)
    | hamIaruRegion1 =>
      rw [mode] at ok
      exact validateAllocationBand (checkedBeforeWarnings ok)
    | hamIaruRegion2 =>
      rw [mode] at ok
      exact validateAllocationBand (checkedBeforeWarnings ok)
    | hamIaruRegion3 =>
      rw [mode] at ok
      exact validateAllocationBand (checkedBeforeWarnings ok)
  obtain ⟨band,found⟩ := found
  exact ⟨band,List.mem_of_find?_eq_some found,by simpa using List.find?_some found⟩

example : ({} : BandplanPolicy).validateFrequency 14074000 "BPSK250" = .ok () := by decide
example : ({} : BandplanPolicy).validateFrequency 10140000 "QPSK1000" =
    .error (.channelWidthExceeded "QPSK1000" 2800 500) := by decide

end OpenPulse.Bandplan
