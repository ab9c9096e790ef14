import Mathlib.Data.Bool.Basic

/-!
# The switches of an ingest deployment

The environment variables that decide what ingest enforces, and the pure decisions taken from
them. Secure mode is the master switch: it is meant to turn every bypass off, whatever the
other variables say.
-/

namespace AggregatorBridge

/-- The environment of the process, one flag for each variable that is compared with
`"true"` (or, for `ENVIRONMENT`, with `"production"`). -/
structure Env where
  /-- `AGGREGATOR_REQUIRE_SECURE`. -/
  requireSecure : Bool
  /-- `AGGREGATOR_ALLOW_UNVERIFIED_TELEMETRY`. -/
  allowUnverifiedTelemetry : Bool
  /-- `ENVIRONMENT`. -/
  isProduction : Bool
  /-- `ALLOW_PLAINTEXT_DLMS`. -/
  allowPlaintextDlms : Bool
  /-- `SKIP_SIG_VERIFY`. -/
  skipSigVerify : Bool
  deriving DecidableEq, Repr

namespace Env

variable (env : Env)

/-- `AGGREGATOR_REQUIRE_SECURE`. -/
def secureModeEnabled : Bool :=
  env.requireSecure

/-- `signature_enforcement_disabled`: the escape hatch, closed in secure mode. -/
def signatureEnforcementDisabled : Bool :=
  !env.secureModeEnabled && env.allowUnverifiedTelemetry

/-- The simulator may come unsigned and in the clear unless secure mode is on. -/
def simulatorBypassAllowed : Bool :=
  !env.secureModeEnabled

end Env

/-- Frames in the clear are accepted only where somebody asked for it and secure mode is off. -/
def plaintextDlmsAllowed (allowPlaintextEnv secureMode : Bool) : Bool :=
  !secureMode && allowPlaintextEnv

/-- As for frames in the clear. -/
def bulkSkipVerifyAllowed (skipVerifyEnv secureMode : Bool) : Bool :=
  !secureMode && skipVerifyEnv

/-- Secure mode closes every switch at once. -/
theorem secureMode_closes_bypasses {env : Env} (secure : env.secureModeEnabled = true) :
    env.signatureEnforcementDisabled = false ∧ env.simulatorBypassAllowed = false ∧
      plaintextDlmsAllowed env.allowPlaintextDlms env.secureModeEnabled = false ∧
      bulkSkipVerifyAllowed env.skipSigVerify env.secureModeEnabled = false := by
  simp [Env.signatureEnforcementDisabled, Env.simulatorBypassAllowed, plaintextDlmsAllowed,
    bulkSkipVerifyAllowed, secure]

end AggregatorBridge
