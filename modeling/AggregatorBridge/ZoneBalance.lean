import AggregatorBridge.Aggregator
import AggregatorBridge.Lib.OrderedMap

/-!
# Zone balances

What the bins of a sweep add up to in each zone, and in all of them. The numbers are logged and
nothing else: no mint and no dispatch reads them. The source adds them up as `f64`s, each
converted from a `Decimal`; here they are the exact rationals that bins have.
-/

namespace AggregatorBridge

/-- `BillingBin::net_energy_kwh`: positive if the bin exported. -/
def BillingBin.netEnergyKwh (bin : BillingBin) : ℚ :=
  bin.energyGenerated - bin.energyConsumed

/-- What the bins of a zone come to. -/
structure ZoneBalance where
  /-- Missing for the bins without a zone. -/
  zoneCode : Option Nat
  generatedKwh : ℚ
  consumedKwh : ℚ
  netKwh : ℚ
  binCount : Nat
  deriving DecidableEq

/-- The key of a zone. No zone at all comes before every zone. -/
def zoneKey (zoneCode : Option Nat) : WithBot Nat :=
  zoneCode

namespace ZoneBalance

/-- The entry a zone starts with. -/
def nothing (zoneCode : Option Nat) : ZoneBalance :=
  ⟨zoneCode, 0, 0, 0, 0⟩

/-- One bin into the entry of its zone. -/
def addBin (entry : Option ZoneBalance) (bin : BillingBin) : ZoneBalance :=
  let entry := entry.getD (nothing bin.zoneCode)
  { entry with
    generatedKwh := entry.generatedKwh + bin.energyGenerated
    consumedKwh := entry.consumedKwh + bin.energyConsumed
    netKwh := entry.netKwh + bin.netEnergyKwh
    binCount := entry.binCount + 1 }

end ZoneBalance

/-- The map that `zone_balances` fills. -/
def balancesByZone (bins : List BillingBin) : OrderedMap (WithBot Nat) ZoneBalance :=
  OrderedMap.tally (fun bin => zoneKey bin.zoneCode) ZoneBalance.addBin bins

/-- `zone_balances`: an entry for each zone that has a bin, in the order of the zones. -/
def zoneBalances (bins : List BillingBin) : List ZoneBalance :=
  (balancesByZone bins).values

/-- `system_net_kwh`: the surplus of all zones together. -/
def systemNetKwh (balances : List ZoneBalance) : ℚ :=
  (balances.map ZoneBalance.netKwh).sum

end AggregatorBridge
