import RiskRules.Rule

/-! The rules that are written by hand and shipped with every pack that does not leave them out. -/

namespace RiskRules.Curated

/-- Identifiers of curated rules start with this. It holds a character that no identifier taken
from a catalog can hold, so the two never clash. -/
def curatedMark : String := "curated/"

def debugPort : Rule where
  identifier := curatedMark ++ "UnsecuredHardwareDebugPort"
  category := {
    id := "unsecured-hardware-debug-port"
    title := "Unsecured Hardware Debug Interface (JTAG/SWD)"
    description :=
      "Hardware debug interfaces like JTAG or SWD are open and not secured. These ports " ++
      "provide low-level access to the device during development but can be used by " ++
      "attackers to extract firmware, dump memory, or hijack execution flow in production."
    impact :=
      "Full control over the device execution flow and firmware extraction. An attacker " ++
      "with physical access could reverse engineer the firmware, extract secrets (keys, " ++
      "certificates), or implant malware."
    function := .operations
    stride := .elevationOfPrivilege
    action := "Hardware Hardening"
    mitigation :=
      "Permanently disable debug interfaces (e.g. via eFuse) before production. If debug " ++
      "access is required for field diagnostics, implement strong cryptographic " ++
      "authentication (e.g. Challenge-Response) to unlock the JTAG port."
    check :=
      "Verify if JTAG/SWD ports are accessible on the PCB and if they are electronically " ++
      "disabled or password protected."
    cwe := some 1260
    asvs := some "V1.1.2"
    cheatSheet := some
      ("https://cheatsheetseries.owasp.org/cheatsheets/" ++
        "Embedded_Application_Security_Cheat_Sheet.html") }
  supportedTags := .ofList ["hardware", "ecu", "microcontroller", "device"]
  gate := .anyTag
  likelihood := .likely
  impact := .veryHigh
  severity := .critical
  breachProbability := .probable
  findingTitle := .aroundComponent "<b>Unsecured Hardware Debug Port (JTAG/SWD)</b> on " ""
  mitigation := .anyTag ["jtag_locked", "no_debug"]

def socIsolation : Rule where
  identifier := curatedMark ++ "ImproperSoCIsolation"
  category := {
    id := "unsecured-soc-isolation"
    title := "Improper SoC Isolation (CWE-1189)"
    description :=
      "The System-on-Chip (SoC) does not appear to have sufficient isolation mechanisms " ++
      "(e.g. hardware virtualization, TrustZone, or physical separation) to prevent shared " ++
      "resource corruption between mixed-criticality domains."
    impact :=
      "Lack of isolation can allow a compromised non-safety core (e.g. QM / Linux) to " ++
      "interfere with safety-critical functions (ASIL-D), leading to loss of vehicle " ++
      "control."
    function := .architecture
    stride := .tampering
    action := "Implement Hardware Enforced Isolation"
    mitigation :=
      "Use hardware virtualization extensions, memory protection units (MPU), or physical " ++
      "core separation."
    check :=
      "Does the SoC host mixed-criticality workloads without certified isolation?"
    cwe := some 1189
    asvs := none
    cheatSheet := none }
  supportedTags := .ofList ["hardware", "gateway"]
  gate := .allTags
  likelihood := .likely
  impact := .veryHigh
  severity := .critical
  breachProbability := .probable
  findingTitle := .aroundComponent "<b>Improper SoC Isolation</b> at <b>" "</b>"
  mitigation := .anyTag ["isolation", "virtualization", "partitioning"]

def inputValidation : Rule where
  identifier := curatedMark ++ "MissingInputValidation"
  category := {
    id := "missing-input-validation"
    title := "Missing Input Validation (CWE-20)"
    description :=
      "The asset appears to accept external input (ingress, diagnostics, API) but does not " ++
      "have explicit input validation controls documented."
    impact :=
      "Lack of input validation can lead to injection attacks (SQLi, Command Injection), " ++
      "buffer overflows, and crash scenarios (DoS)."
    function := .development
    stride := .tampering
    action := "Implement Strict Input Validation"
    mitigation :=
      "Validate all inputs against a strict allow-list. Sanitize data at trust boundaries."
    check :=
      "Are all external inputs validated before processing?"
    cwe := some 20
    asvs := none
    cheatSheet := none }
  supportedTags := .ofList ["ingress", "diagnostics", "web", "api", "gateway"]
  gate := .anyTag
  likelihood := .likely
  impact := .high
  severity := .high
  breachProbability := .probable
  findingTitle := .aroundComponent "<b>Missing Input Validation</b> at <b>" "</b>"
  mitigation := .anyTag ["input-validation", "waf"]

def rules : List Rule :=
  [debugPort, socIsolation, inputValidation]

end RiskRules.Curated
