import AggregatorBridge.Aggregator
import AggregatorBridge.Laws.DlmsRegisters
import AggregatorBridge.Rest

/-!
# What a REST signature says and what is billed

The signed message of a REST meter carries a number and a time, and the billed reading is
decoded from the same payload by another piece of code. This module states when the two agree.

For the number, `signedEnergy` and `billedEnergy` describe the two readers by KEY: the signer
takes the first of five keys that holds a number or a numeric string, the decoder bills one
register and reads strings as nothing. They agree when the two keys hold the same energy, and
in no other case: nothing else of the payload is looked at.

For the time, both sides parse the same field with the same parser. They can only come apart
where there is nothing to parse, since the signer then writes zero and the decoder the time of
arrival, and in a leap second that ends a window, which the millisecond timestamp counts into
the next one.

The law is about one payload whose signature verified. It says nothing of a payload that is sent
again.
-/

namespace AggregatorBridge

open DlmsStack

section

variable {F K : Type} [Float64 F]

/-! ## The two readers, by key -/

/-- The keys the signer looks at, in its order. -/
def signKeys : List String :=
  ["kwh", "energy_consumed", "energy_generated", Obis.elecActiveImportTotal,
    Obis.elecActiveExportTotal]

/-- The keys that hold kilowatt-hours; every other register is in watt-hours. -/
def isPlainKey (key : String) : Bool :=
  key == "kwh" || key == "energy_consumed" || key == "energy_generated"

/-- A number in the unit of its key, in kilowatt-hours. -/
def inKwh (key : String) (x : F) : F :=
  if isPlainKey key then x else toKwh x

/-- The key the signer reads: the first that holds a number, also one spelled as a string. -/
def signedKey (payload : JsonObject F) : Option String :=
  signKeys.find? fun key => (signNumber payload.value key).isSome

/-- The energy under the signer's key. -/
def signedEnergy (payload : JsonObject F) : F :=
  match signedKey payload with
  | some key => inKwh key ((signNumber payload.value key).getD (Float64.ofInt 0))
  | none => Float64.ofInt 0

/-- The payload has a consumption field. -/
def CarriesConsumption (payload : JsonObject F) : Prop :=
  (payload.members.lookup "energy_consumed").isSome ∨
    (payload.members.lookup Obis.elecActiveImportTotal).isSome

instance (payload : JsonObject F) : Decidable (CarriesConsumption payload) :=
  inferInstanceAs (Decidable (_ ∨ _))

/-- The member a payload is billed by. With a consumption field that is the register the
import, gas and water volumes share when the import is present, the plain consumption when it
is a number, and the shared register otherwise; without one it is the export, or the plain
generation when that is a number. -/
def billedMember (payload : JsonObject F) : Option (String × Json F) :=
  let plain (key : String) :=
    ((payload.members.lookup key).filter fun v => v.asF64.isSome).map fun v => (key, v)
  if CarriesConsumption payload then
    if (payload.members.lookup Obis.elecActiveImportTotal).isSome then lastVolume payload.members
    else (plain "energy_consumed").or (lastVolume payload.members)
  else
    match payload.members.lookup Obis.elecActiveExportTotal with
    | some v => some (Obis.elecActiveExportTotal, v)
    | none => plain "energy_generated"

/-- The energy of the billed member; anything but a number counts as nothing. -/
def billedEnergy (payload : JsonObject F) : F :=
  match billedMember payload with
  | some m => inKwh m.1 (numberOrZero m.2)
  | none => Float64.ofInt 0

/-! ## The code reads what the keys say -/

theorem signValue_eq_signedEnergy (payload : JsonObject F) :
    signValue payload.value = signedEnergy payload := by
  unfold signValue signedEnergy signedKey signKeys
  simp only [List.find?_cons, List.find?_nil]
  cases kwh : signNumber payload.value "kwh" with
  | some x => simp [kwh, inKwh, isPlainKey]
  | none =>
    cases con : signNumber payload.value "energy_consumed" with
    | some x => simp [con, inKwh, isPlainKey]
    | none =>
      cases gen : signNumber payload.value "energy_generated" with
      | some x => simp [gen, inKwh, isPlainKey]
      | none =>
        have imp : ("1.1.1.8.0.255" : String) = Obis.elecActiveImportTotal := rfl
        have exp : ("1.1.2.8.0.255" : String) = Obis.elecActiveExportTotal := rfl
        rw [imp, exp]
        have notPlainImp : isPlainKey Obis.elecActiveImportTotal = false := by decide
        have notPlainExp : isPlainKey Obis.elecActiveExportTotal = false := by decide
        cases importWh : signNumber payload.value Obis.elecActiveImportTotal with
        | some x => simp [importWh, inKwh, notPlainImp]
        | none =>
          cases exportWh : signNumber payload.value Obis.elecActiveExportTotal with
          | some x => simp [exportWh, inKwh, notPlainExp]
          | none => simp

/-- A key that writes the shared register is in watt-hours. -/
theorem isPlainKey_of_isVolumeKey {key : String} (volume : isVolumeKey key = true) :
    isPlainKey key = false := by
  simp only [isVolumeKey, Bool.or_eq_true, beq_iff_eq] at volume
  rcases volume with (rfl | rfl) | rfl <;> decide

/-- The walk over the volume registers keeps the last of them. -/
theorem volumeKwh_eq (members : List (String × Json F)) :
    volumeKwh members =
      match lastVolume members with
      | some m => inKwh m.1 (numberOrZero m.2)
      | none => Float64.ofInt 0 := by
  unfold volumeKwh
  cases last : lastVolume members with
  | none => rfl
  | some m =>
    have volume : isVolumeKey m.1 = true := by
      have mem := List.mem_of_getLast? last
      exact (List.mem_filter.mp mem).2
    simp only [inKwh, isPlainKey_of_isVolumeKey volume]
    rfl

/-- The energy of a plain key that must hold a number. -/
theorem inKwh_plain (members : List (String × Json F)) {key : String}
    (isPlain : isPlainKey key = true) (fallback : F) :
    ((members.lookup key).bind Json.asF64).getD fallback =
      match ((members.lookup key).filter fun v => v.asF64.isSome) with
      | some v => inKwh key (numberOrZero v)
      | none => fallback := by
  cases members.lookup key with
  | none => rfl
  | some v =>
    cases number : v.asF64 with
    | none => simp [Option.filter, number]
    | some x => simp [Option.filter, number, inKwh, isPlain, numberOrZero]

/-- The decoder bills the energy of the billed member. -/
theorem billed_eq_billedEnergy [ExactScaling F] (payload : JsonObject F) :
    (if CarriesConsumption payload then (mapPayload payload.members).2.1
      else (mapPayload payload.members).1) = billedEnergy payload := by
  have volume := volumeKwh_eq payload.members
  unfold billedEnergy billedMember
  by_cases carries : CarriesConsumption payload
  · rw [if_pos carries, decoded_consumed]
    simp only [if_pos carries]
    by_cases hasImport : (payload.members.lookup Obis.elecActiveImportTotal).isSome = true
    · rw [if_pos hasImport, if_pos hasImport]
      exact volume
    · rw [if_neg hasImport, if_neg hasImport, inKwh_plain _ (by decide), volume]
      cases (payload.members.lookup "energy_consumed").filter fun v => v.asF64.isSome with
      | none => simp
      | some v => simp
  · rw [if_neg carries, decoded_generated]
    simp only [if_neg carries]
    cases payload.members.lookup Obis.elecActiveExportTotal with
    | some v => rfl
    | none =>
      simp only
      rw [inKwh_plain _ (by decide)]
      cases (payload.members.lookup "energy_generated").filter fun v => v.asF64.isSome with
      | none => rfl
      | some v => rfl

/-! ## The two times -/

variable (svc : RestServices F K)

/-- The billing window of a millisecond timestamp, in milliseconds. -/
def windowOfMillis (ms : Int) : Int :=
  ms - ms % 900000

omit [Float64 F] in
/-- The signed time is the parsed time in milliseconds, or zero. -/
theorem signTimestampMs_eq (payload : Json F) :
    signTimestampMs svc payload =
      ((payloadTime svc.rfc3339 payload).map DateTime.timestampMillis).getD 0 := by
  unfold signTimestampMs payloadTime
  cases (payload.get "timestamp").bind Json.asStr with
  | none =>
    simp only [Option.getD_none, Option.bind_none, Option.map_none, svc.rfc3339.parse_empty]
  | some text =>
    simp only [Option.getD_some, Option.bind_some]
    cases svc.rfc3339.parse text with
    | none => rfl
    | some t => rfl

/-- The time of a payload is billed in the window it is signed in: a parsed time that is not
a leap second at the end of a window, or, with nothing to parse, an arrival in the very first
window of the epoch. -/
def TimeAgrees (payload : JsonObject F) : Prop :=
  match payloadTime svc.rfc3339 payload.value with
  | some t => ¬ (1000000000 ≤ t.nanos ∧ t.secs % 900 = 899)
  | none => 0 ≤ svc.now.secs ∧ svc.now.secs < 900

theorem windowStart_millis (t : DateTime) :
    (windowStart t).timestampMillis = (t.secs - t.secs % 900) * 1000 := by
  rw [windowStart_eq, DateTime.timestampMillis_ofSecs]

/-- Milliseconds and seconds fall into the same window, except in a leap second that ends
one. -/
theorem windowOfMillis_timestampMillis (t : DateTime) :
    (windowStart t).timestampMillis = windowOfMillis t.timestampMillis ↔
      ¬ (1000000000 ≤ t.nanos ∧ t.secs % 900 = 899) := by
  have bound := t.nanos_lt
  rw [windowStart_millis, windowOfMillis, DateTime.timestampMillis]
  omega

omit [Float64 F] in
/-- The two times have one window exactly if there is a time to parse and it is not in the leap
second of a window's end. -/
theorem window_agrees_iff (payload : JsonObject F) :
    (windowStart ((payloadTime svc.rfc3339 payload.value).getD svc.now)).timestampMillis =
        windowOfMillis (signTimestampMs svc payload.value) ↔ TimeAgrees svc payload := by
  rw [signTimestampMs_eq]
  unfold TimeAgrees
  cases payloadTime svc.rfc3339 payload.value with
  | some t => exact windowOfMillis_timestampMillis t
  | none =>
    simp only [Option.getD_none, Option.map_none, windowStart_millis, windowOfMillis]
    omega

/-! ## Signed and billed -/

/-- The signed number and time of a payload are those of the reading decoded from it. -/
structure SignedIsBilled (payload : JsonObject F) (reading : DeviceReading F) : Prop where
  value : signValue payload.value =
    if CarriesConsumption payload then reading.consumedKwh else reading.generatedKwh
  window : (windowStart reading.timestamp).timestampMillis =
    windowOfMillis (signTimestampMs svc payload.value)

/-- For every payload object, every order of its members and every arrival time: the reading decoded
from it carries the signed number and time if and only if the signer's key and the billed key hold
the same energy and the time agrees. Both readers are described by the keys they look at, and no
other member matters to either. -/
theorem signed_is_billed_iff [ExactScaling F] (newV4 : Uuid) (deviceId : String)
    (payload : JsonObject F) :
    ∃ reading, handleMessage svc.rfc3339 svc.now newV4 deviceId payload.value = .ok reading ∧
      (SignedIsBilled svc payload reading ↔
        signedEnergy payload = billedEnergy payload ∧ TimeAgrees svc payload) := by
  refine ⟨_, rfl, ?_⟩
  constructor
  · rintro ⟨value, window⟩
    refine ⟨?_, (window_agrees_iff svc payload).mp window⟩
    rw [← signValue_eq_signedEnergy, ← billed_eq_billedEnergy]
    exact value
  · rintro ⟨energies, times⟩
    refine ⟨?_, (window_agrees_iff svc payload).mpr times⟩
    rw [signValue_eq_signedEnergy, energies, ← billed_eq_billedEnergy]
    rfl

end

/-! ## A payload with two numbers -/

/-- A deployment with one registered meter, `M1`, whose signature is sixty-four zero bytes and
verifies over one message, and with one date it can parse. -/
def oneMeterRest : RestServices ℚ Unit where
  verifier :=
    { resolvePubkey := fun meter => .ok (if meter = "M1" then some () else none)
      bs58Decode := fun text =>
        if text = String.ofList (List.replicate 64 '1') then .ok (List.replicate 64 0)
        else .error "invalid character"
      verify := fun _ message signature =>
        message == Text.utf8 "M1:3:1767225600000" && signature == List.replicate 64 0 }
  toVec := fun _ => []
  rfc3339 :=
    { parse := fun text =>
        if text = "2026-01-01T00:00:00Z" then some (DateTime.ofSecs 1767225600) else none
      parse_empty := by decide }
  now := DateTime.ofSecs 1767225700
  newV4 := fun position => BitVec.ofNat 128 position
  disseminate := fun _ => true
  base64Decode := fun _ => none
  getDeviceAesKey := fun _ _ => .ok none
  gcmDecrypt := fun _ _ _ _ => none
  checkAndBumpCounter := fun _ _ => .ok true
  fromSlice := fun _ => .error "EOF while parsing a value"

/-- A payload that carries its consumption and a different display value. -/
def twoNumbersPayload : JsonObject ℚ where
  members :=
    [("kwh", .num (.posInt 5)), ("energy_consumed", .num (.posInt 3)),
      ("timestamp", .str "2026-01-01T00:00:00Z")]
  distinct := by decide

/-- The display value `kwh` is signed and the consumption is billed: five against three. -/
theorem signed_five_billed_three :
    ¬ ∀ (payload : JsonObject ℚ) (reading : DeviceReading ℚ),
      handleMessage oneMeterRest.rfc3339 oneMeterRest.now 0 "M1" payload.value = .ok reading →
      SignedIsBilled oneMeterRest payload reading := by
  intro agrees
  have billed := (agrees twoNumbersPayload _ rfl).value
  exact absurd billed (by decide +kernel)

/-- A payload with one consumption and a date. -/
def plainPayload : JsonObject ℚ where
  members :=
    [("energy_consumed", .num (.posInt 3)), ("timestamp", .str "2026-01-01T00:00:00Z")]
  distinct := by decide

/-- Such a payload is billed as it is signed. -/
theorem plainPayload_signed_is_billed :
    ∃ reading,
      handleMessage oneMeterRest.rfc3339 oneMeterRest.now 0 "M1" plainPayload.value =
        .ok reading ∧ SignedIsBilled oneMeterRest plainPayload reading := by
  obtain ⟨reading, decoded, agrees⟩ := signed_is_billed_iff oneMeterRest 0 "M1" plainPayload
  have times : TimeAgrees oneMeterRest plainPayload := by
    show ¬ _
    decide
  exact ⟨reading, decoded, agrees.mpr ⟨by decide +kernel, times⟩⟩

end AggregatorBridge
