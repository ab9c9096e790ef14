import AggregatorBridge.ZoneBalance
import Mathlib.Algebra.BigOperators.Group.List.Lemmas
import Mathlib.Algebra.Order.BigOperators.Group.List
import Mathlib.Algebra.Order.Field.Basic
import Mathlib.Tactic.Linarith

/-!
# Zone balances conserve energy

Each bin goes to the entry of its own zone, and the entries are the values of a map that is
ordered by zone. So the totals of an entry are sums over the bins of its zone, the totals over
all entries are sums over all bins, and the bins can come in any order
(`zone_balances_conserve`). Bins without a zone have an entry of their own, before the others.

The totals are those of the bins in memory at one moment; energy that is on its way to a bin is not
in them.
-/

namespace AggregatorBridge

open OrderedMap

/-- The bins of a zone. -/
def ofZone (zoneCode : Option Nat) (bins : List BillingBin) : List BillingBin :=
  bins.filter fun bin => bin.zoneCode = zoneCode

/-- What a zone has to show for its bins. -/
def zoneTotals (zoneCode : Option Nat) (bins : List BillingBin) : ZoneBalance where
  zoneCode := zoneCode
  generatedKwh := ((ofZone zoneCode bins).map BillingBin.energyGenerated).sum
  consumedKwh := ((ofZone zoneCode bins).map BillingBin.energyConsumed).sum
  netKwh := ((ofZone zoneCode bins).map BillingBin.energyGenerated).sum -
    ((ofZone zoneCode bins).map BillingBin.energyConsumed).sum
  binCount := (ofZone zoneCode bins).length

namespace ZoneBalance

variable (entry : Option ZoneBalance) (bin : BillingBin)

theorem generatedKwh_addBin :
    (addBin entry bin).generatedKwh = measured generatedKwh entry + bin.energyGenerated := by
  cases entry <;> rfl

theorem consumedKwh_addBin :
    (addBin entry bin).consumedKwh = measured consumedKwh entry + bin.energyConsumed := by
  cases entry <;> rfl

theorem netKwh_addBin :
    (addBin entry bin).netKwh = measured netKwh entry + bin.netEnergyKwh := by
  cases entry <;> rfl

theorem binCount_addBin : (addBin entry bin).binCount = measured binCount entry + 1 := by
  cases entry <;> rfl

/-- An entry keeps its zone, and a new one has the zone of its first bin. -/
theorem zoneCode_addBin (kept : ∀ held, entry = some held → held.zoneCode = bin.zoneCode) :
    (addBin entry bin).zoneCode = bin.zoneCode := by
  cases entry with
  | none => rfl
  | some held => exact kept held rfl

/-- Two bins of one zone can change places. -/
theorem addBin_swaps (first second : BillingBin) (same : first.zoneCode = second.zoneCode) :
    addBin (some (addBin entry first)) second = addBin (some (addBin entry second)) first := by
  cases entry with
  | none =>
    simp only [addBin, nothing, Option.getD_none, Option.getD_some, same, mk.injEq, true_and]
    refine ⟨add_right_comm _ _ _, add_right_comm _ _ _, add_right_comm _ _ _, trivial⟩
  | some held =>
    simp only [addBin, Option.getD_some, mk.injEq, true_and]
    refine ⟨add_right_comm _ _ _, add_right_comm _ _ _, add_right_comm _ _ _, trivial⟩

end ZoneBalance

open ZoneBalance

/-- The net energy of some bins is what they generated less what they consumed. -/
theorem sum_netEnergyKwh (bins : List BillingBin) :
    (bins.map BillingBin.netEnergyKwh).sum =
      (bins.map BillingBin.energyGenerated).sum - (bins.map BillingBin.energyConsumed).sum := by
  induction bins with
  | nil => exact (sub_zero 0).symm
  | cons bin bins ih =>
    simp only [List.map_cons, List.sum_cons, ih, BillingBin.netEnergyKwh]
    linarith

theorem sum_map_one (bins : List BillingBin) : (bins.map fun _ => 1).sum = bins.length := by
  simp

theorem mem_keys_balancesByZone {bins : List BillingBin} {zoneCode : Option Nat} :
    zoneKey zoneCode ∈ (balancesByZone bins).keys ↔ ∃ bin ∈ bins, bin.zoneCode = zoneCode :=
  mem_keys_tally (fun bin => zoneKey bin.zoneCode) addBin

/-- An entry is filed under its own zone. -/
theorem zoneCode_of_entry {bins : List BillingBin} {zone : WithBot Nat} {balance : ZoneBalance}
    (found : (balancesByZone bins).lookup zone = some balance) :
    zoneKey balance.zoneCode = zone := by
  induction bins using List.reverseRecOn generalizing balance with
  | nil => cases found
  | append_singleton bins bin ih =>
    rw [balancesByZone, tally_snoc, lookup_upsert] at found
    split at found
    · next mine =>
      subst mine
      cases found
      exact zoneCode_addBin _ bin fun held same => ih same
    · exact ih found

/-- An entry has the totals of its zone. -/
theorem entry_eq {bins : List BillingBin} {zoneCode : Option Nat} {balance : ZoneBalance}
    (found : (balancesByZone bins).lookup (zoneKey zoneCode) = some balance) :
    balance = zoneTotals zoneCode bins := by
  have zone : balance.zoneCode = zoneCode := zoneCode_of_entry found
  have generated := measure_tally (fun bin => zoneKey bin.zoneCode) addBin generatedKwh_addBin
    bins (zoneKey zoneCode)
  have consumed := measure_tally (fun bin => zoneKey bin.zoneCode) addBin consumedKwh_addBin
    bins (zoneKey zoneCode)
  have net := measure_tally (fun bin => zoneKey bin.zoneCode) addBin netKwh_addBin
    bins (zoneKey zoneCode)
  have count := measure_tally (fun bin => zoneKey bin.zoneCode) addBin binCount_addBin
    bins (zoneKey zoneCode)
  rw [balancesByZone] at found
  rw [found] at generated consumed net count
  change balance.generatedKwh = ((ofZone zoneCode bins).map BillingBin.energyGenerated).sum
    at generated
  change balance.consumedKwh = ((ofZone zoneCode bins).map BillingBin.energyConsumed).sum
    at consumed
  change balance.netKwh = ((ofZone zoneCode bins).map BillingBin.netEnergyKwh).sum at net
  change balance.binCount = ((ofZone zoneCode bins).map fun _ => 1).sum at count
  rw [sum_netEnergyKwh] at net
  rw [sum_map_one] at count
  obtain ⟨_, _, _, _, _⟩ := balance
  simp only at zone generated consumed net count
  rw [zone, generated, consumed, net, count]
  rfl

/-- The entries are the totals of the zones that occur, and nothing else. -/
theorem mem_zoneBalances_iff {bins : List BillingBin} {balance : ZoneBalance} :
    balance ∈ zoneBalances bins ↔
      balance = zoneTotals balance.zoneCode bins ∧
        ∃ bin ∈ bins, bin.zoneCode = balance.zoneCode := by
  constructor
  · intro mem
    obtain ⟨⟨zone, _⟩, listed, rfl⟩ := List.mem_map.mp mem
    have found := lookup_of_mem listed
    cases zoneCode_of_entry found
    refine ⟨entry_eq found, mem_keys_balancesByZone.mp (mem_keys_iff.mpr ?_)⟩
    rw [found]
    exact Option.some_ne_none _
  · rintro ⟨same, bin, mem, zone⟩
    have keyed := mem_keys_balancesByZone.mpr ⟨bin, mem, zone⟩
    obtain ⟨held, found⟩ := Option.ne_none_iff_exists'.mp (mem_keys_iff.mp keyed)
    rw [same, ← entry_eq found]
    exact List.mem_map.mpr ⟨_, mem_of_lookup found, rfl⟩

/-- The entries stand in the order of their zones, one for each zone. -/
theorem zoneBalances_sorted (bins : List BillingBin) :
    (zoneBalances bins).Pairwise fun a b => zoneKey a.zoneCode < zoneKey b.zoneCode := by
  rw [zoneBalances, values, List.pairwise_map]
  apply (balancesByZone bins).sorted.imp_of_mem
  intro first second mem mem' less
  rw [zoneCode_of_entry (lookup_of_mem mem), zoneCode_of_entry (lookup_of_mem mem')]
  exact less

/-- The balances of a list of bins: one entry for each zone that occurs, in the order of the
zones, with the totals of the zone, such that the bin counts and the net energies add up to those
of all bins; and the same balances in every order of the bins. -/
theorem zone_balances_conserve (bins : List BillingBin) :
    (zoneBalances bins).Pairwise (fun a b => zoneKey a.zoneCode < zoneKey b.zoneCode) ∧
      (∀ balance, balance ∈ zoneBalances bins ↔
        balance = zoneTotals balance.zoneCode bins ∧
          ∃ bin ∈ bins, bin.zoneCode = balance.zoneCode) ∧
      ((zoneBalances bins).map ZoneBalance.binCount).sum = bins.length ∧
      systemNetKwh (zoneBalances bins) =
        (bins.map BillingBin.energyGenerated).sum - (bins.map BillingBin.energyConsumed).sum ∧
      ∀ others : List BillingBin, others.Perm bins → zoneBalances others = zoneBalances bins := by
  refine ⟨zoneBalances_sorted bins, fun _ => mem_zoneBalances_iff, ?_, ?_, ?_⟩
  · have counted := sum_tally (fun bin => zoneKey bin.zoneCode) addBin binCount_addBin bins
    rw [sum_map_one] at counted
    exact counted
  · have netted := sum_tally (fun bin => zoneKey bin.zoneCode) addBin netKwh_addBin bins
    rw [sum_netEnergyKwh] at netted
    exact netted
  · intro others perm
    have swaps : ∀ (entry : Option ZoneBalance) (first second : BillingBin),
        zoneKey first.zoneCode = zoneKey second.zoneCode →
          addBin (some (addBin entry first)) second = addBin (some (addBin entry second)) first :=
      fun entry first second same => addBin_swaps entry first second same
    exact congrArg values (tally_perm (fun bin : BillingBin => zoneKey bin.zoneCode) addBin swaps
      perm)

end AggregatorBridge
