import OpenPulse.Engine
import OpenPulse.SharedPtt

/-! One emission under the transmitter key: `keyed_transmit` as the daemon has it in
`openpulse-daemon/src/lib.rs`, and as the TNC has it in `openpulse-ardop/src/bridge.rs`,
where every failure looks the same. -/
namespace OpenPulse.KeyedTx
open ByteCodec Engine SharedPtt

inductive KeyedTxError where
  | assert
  | alreadyKeyed
  | transmit (e : ModemError)
  deriving DecidableEq, Repr

structure Keying where
  now : Nat
  asserts : Bool
  releases : Bool

abbrev Emit := ModemEngine → Except ModemError Unit × ModemEngine

/-- The key is held for the whole of `emit`; the guard releases it on the way out. -/
def keyedTransmit (k : Keying) (ptt : Station) (g : ModemEngine) (emit : Emit) :
    Except KeyedTxError Unit × Station × ModemEngine :=
  match ptt.keyed true k.now k.asserts with
  | (.error (.alreadyKeyed _),ptt) => (.error .alreadyKeyed,ptt,g)
  | (.error .hardware,ptt) => (.error .assert,ptt,g)
  | (.ok guard,ptt) => ((emit g).1.mapError .transmit,(guard.releaseInner ptt k.releases).2.2,(emit g).2)

def bridgeKeyedTransmit (k : Keying) (ptt : Station) (g : ModemEngine) (emit : Emit) : Option Unit × Station × ModemEngine :=
  match ptt.keyed true k.now k.asserts with
  | (.error _,ptt) => (none,ptt,g)
  | (.ok guard,ptt) => ((emit g).1.toOption,(guard.releaseInner ptt k.releases).2.2,(emit g).2)

variable {k : Keying} {ptt : Station}

structure Free (k : Keying) (ptt : Station) : Prop where
  idle : ptt.armed = false
  takes : ptt.inner.controller = true → k.asserts = true

structure Faulty (k : Keying) (ptt : Station) : Prop where
  idle : ptt.armed = false
  controller : ptt.inner.controller = true
  refuses : k.asserts = false

theorem keyedHeld (held : ptt.armed = true) (g : ModemEngine) (emit : Emit) :
    keyedTransmit k ptt g emit = (.error .alreadyKeyed,ptt,g) ∧ bridgeKeyedTransmit k ptt g emit = (none,ptt,g) := by
  have refused : ptt.keyed true k.now k.asserts = (.error (.alreadyKeyed ptt.inner.heldBy),ptt) := by
    simp [Station.keyed, Station.keyAs, held]
  constructor
  · simp only [keyedTransmit, refused]
  · simp only [bridgeKeyedTransmit, refused]

theorem keyedFaulty (faulty : Faulty k ptt) (g : ModemEngine) (emit : Emit) :
    ∃ ptt', keyedTransmit k ptt g emit = (.error .assert,ptt',g) ∧ bridgeKeyedTransmit k ptt g emit = (none,ptt',g) := by
  obtain ⟨idle,controller,refuses⟩ := faulty
  have failed : ∃ ptt', ptt.keyed true k.now k.asserts = (.error .hardware,ptt') := by
    simp [Station.keyed, Station.keyAs, idle, Station.assertPtt, controller, refuses]
  obtain ⟨ptt',failed⟩ := failed
  refine ⟨ptt',?_,?_⟩
  · simp only [keyedTransmit, failed]
  · simp only [bridgeKeyedTransmit, failed]

theorem keyedFree (free : Free k ptt) (g : ModemEngine) (emit : Emit) :
    ∃ ptt', keyedTransmit k ptt g emit = ((emit g).1.mapError .transmit,ptt',(emit g).2) ∧
      bridgeKeyedTransmit k ptt g emit = ((emit g).1.toOption,ptt',(emit g).2) := by
  obtain ⟨idle,takes⟩ := free
  have keyed : ∃ guard ptt', ptt.keyed true k.now k.asserts = (.ok guard,ptt') := by
    cases controller : ptt.inner.controller with
    | false => simp [Station.keyed, Station.keyAs, idle, Station.assertPtt, controller]
    | true => simp [Station.keyed, Station.keyAs, idle, Station.assertPtt, controller, takes controller]
  obtain ⟨guard,ptt',keyed⟩ := keyed
  refine ⟨(guard.releaseInner ptt' k.releases).2.2,?_,?_⟩
  · simp only [keyedTransmit, keyed]
  · simp only [bridgeKeyedTransmit, keyed]

theorem keyCases (k : Keying) (ptt : Station) : ptt.armed = true ∨ Faulty k ptt ∨ Free k ptt := by
  cases held : ptt.armed with
  | true => exact .inl rfl
  | false =>
    by_cases faulty : ptt.inner.controller = true ∧ k.asserts = false
    · exact .inr (.inl ⟨held,faulty.1,faulty.2⟩)
    · refine .inr (.inr ⟨held,fun controller => ?_⟩)
      cases asserts : k.asserts with
      | true => rfl
      | false => exact absurd ⟨controller,asserts⟩ faulty

end OpenPulse.KeyedTx
