import Mathlib.Data.Rat.Defs
import Shinigami.Foundations.CText
import Shinigami.Foundations.Run

/-!
# Configuration of the service manager

`sm_config.c`: the configuration, its file format and the calls that load and
change it. The state is the pair of static variables `g_config` and
`g_config_loaded`. A load is given what opening the file yields, its bytes or
nothing.
-/

namespace Shinigami

namespace ServiceManager

open CString

/-- Size of the `char` fields of the configuration. -/
def configTextSize : ℕ := 256

/-- `sm_config_t`. -/
structure SmConfig where
  maxServices : Int32
  maxRestarts : Int32
  heartbeatTimeout : Int32
  messageTimeoutSec : Int32
  ratePidCapacity : Int32
  ratePidRefill : ℚ
  rateGlobalCapacity : Int32
  rateGlobalRefill : ℚ
  logFile : List UInt8
  logLevel : Int32
  logMaxSizeMb : Int32
  logBackupCount : Int32
  socketPath : List UInt8
  socketMode : Int32
  socketBacklog : Int32
  healthCheckInterval : Int32
  healthRestartDelay : Int32
  managementPort : Int32
  enableManagement : Int32
  threadPoolSize : Int32
  workQueueSize : Int32
  enablePersistence : Int32
  persistenceFile : List UInt8
  verifyKeyFile : List UInt8
deriving DecidableEq

/-- The static variable before it is set. -/
def SmConfig.zero : SmConfig where
  maxServices := 0
  maxRestarts := 0
  heartbeatTimeout := 0
  messageTimeoutSec := 0
  ratePidCapacity := 0
  ratePidRefill := 0
  rateGlobalCapacity := 0
  rateGlobalRefill := 0
  logFile := List.replicate configTextSize 0
  logLevel := 0
  logMaxSizeMb := 0
  logBackupCount := 0
  socketPath := List.replicate configTextSize 0
  socketMode := 0
  socketBacklog := 0
  healthCheckInterval := 0
  healthRestartDelay := 0
  managementPort := 0
  enableManagement := 0
  threadPoolSize := 0
  workQueueSize := 0
  enablePersistence := 0
  persistenceFile := List.replicate configTextSize 0
  verifyKeyFile := List.replicate configTextSize 0

/-- `sm_config_default`. -/
def smConfigDefault : SmConfig where
  maxServices := 32
  maxRestarts := 3
  heartbeatTimeout := 10
  messageTimeoutSec := 5
  ratePidCapacity := 10
  ratePidRefill := 10
  rateGlobalCapacity := 50
  rateGlobalRefill := 50
  logFile := strncpyField configTextSize (literal "/var/log/middleware/servicemanager.log")
  logLevel := 1
  logMaxSizeMb := 10
  logBackupCount := 5
  socketPath := strncpyField configTextSize (literal "/run/middleware/servicemanager.sock")
  socketMode := 0o660
  socketBacklog := 32
  healthCheckInterval := 3
  healthRestartDelay := 2
  managementPort := 9999
  enableManagement := 0
  threadPoolSize := 4
  workQueueSize := 64
  enablePersistence := 1
  persistenceFile :=
    strncpyField configTextSize (literal "/var/lib/middleware/registry.dat")
  verifyKeyFile := List.replicate configTextSize 0

/-- `parse_octal_or_decimal`. -/
def parseOctalOrDecimal (value : List UInt8) : Int32 :=
  match value with
  | 48 :: b :: _ =>
      if 48 ≤ b ∧ b ≤ 55 then Int32.ofInt (strtol 8 value) else atoi value
  | _ => atoi value

/-- `str_trim`. -/
def strTrim (s : List UInt8) : List UInt8 :=
  ((cstr s).dropWhile isspace).rdropWhile isspace

/-- The chain of comparisons of `sm_config_load`: one option of a section. -/
def applyOption (cfg : SmConfig) (sectionName key val : List UInt8) : SmConfig :=
  if sectionName = literal "limits" then
    if key = literal "max_services" then { cfg with maxServices := atoi val }
    else if key = literal "max_restarts" then { cfg with maxRestarts := atoi val }
    else if key = literal "heartbeat_timeout" then { cfg with heartbeatTimeout := atoi val }
    else cfg
  else if sectionName = literal "logging" then
    if key = literal "level" then { cfg with logLevel := atoi val }
    else if key = literal "max_size_mb" then { cfg with logMaxSizeMb := atoi val }
    else if key = literal "file" then
      { cfg with logFile := strncpyField configTextSize val }
    else cfg
  else if sectionName = literal "socket" then
    if key = literal "path" then { cfg with socketPath := strncpyField configTextSize val }
    else if key = literal "mode" then { cfg with socketMode := parseOctalOrDecimal val }
    else cfg
  else if sectionName = literal "rate_limit" then
    if key = literal "pid_capacity" then { cfg with ratePidCapacity := atoi val }
    else if key = literal "global_capacity" then { cfg with rateGlobalCapacity := atoi val }
    else cfg
  else if sectionName = literal "management" then
    if key = literal "enable" then { cfg with enableManagement := atoi val }
    else if key = literal "port" then { cfg with managementPort := atoi val }
    else cfg
  else if sectionName = literal "threadpool" then
    if key = literal "size" then { cfg with threadPoolSize := atoi val }
    else if key = literal "queue_size" then { cfg with workQueueSize := atoi val }
    else cfg
  else if sectionName = literal "security" then
    if key = literal "verify_key_file" then
      { cfg with verifyKeyFile := strncpyField configTextSize val }
    else cfg
  else cfg

/-- One line of the file: `section` and `g_config` after it. -/
def configLine (st : List UInt8 × SmConfig) (line : List UInt8) : List UInt8 × SmConfig :=
  let (sectionName, cfg) := st
  let p := strTrim line
  if p = [] ∨ p.head? = some 59 ∨ p.head? = some 35 then st
  else if p.head? = some 91 ∧ p.getLast? = some 93 then
    -- `strncpy(section, p + 1, 62)`, then the last character is cut off.
    (((p.drop 1).take 62).dropLast, cfg)
  else if 61 ∉ p then st
  else
    let key := strTrim (p.takeWhile (· != 61))
    let val := strTrim ((p.dropWhile (· != 61)).drop 1)
    (sectionName, applyOption cfg sectionName key val)

def parseConfig (file : List UInt8) : SmConfig :=
  ((fgetsLines 512 file).foldl configLine ([], smConfigDefault)).2

/-- `sm_config_validate`. -/
def smConfigValidate (cfg : SmConfig) : ℤ :=
  if cfg.maxServices < 1 ∨ cfg.maxServices > 1024 then -1
  else if cfg.maxRestarts < 0 then -1
  else if cfg.heartbeatTimeout < 1 then -1
  else if cfg.threadPoolSize < 1 ∨ cfg.threadPoolSize > 64 then -1
  else if cfg.workQueueSize < 4 ∨ cfg.workQueueSize > 4096 then -1
  else 0

/-- `g_config` and `g_config_loaded`. -/
structure ConfigState where
  config : SmConfig
  loaded : Bool

def ConfigState.initial : ConfigState := ⟨SmConfig.zero, false⟩

/-- `sm_config_load`, on what opening the file yields. -/
def smConfigLoad (s : ConfigState) (file : Option (List UInt8)) : ConfigState × ℤ :=
  match file with
  | none => (⟨smConfigDefault, true⟩, 0)
  | some bytes =>
      let cfg := parseConfig bytes
      if smConfigValidate cfg < 0 then (⟨cfg, s.loaded⟩, -1) else (⟨cfg, true⟩, 0)

/-- `sm_config_get`: the configuration it returns, and the state after the call. -/
def smConfigGet (s : ConfigState) : SmConfig × ConfigState :=
  if s.loaded then (s.config, s) else (smConfigDefault, ⟨smConfigDefault, true⟩)

/-- `sm_config_set_int`; the key is `none` for a null pointer. -/
def smConfigSetInt (s : ConfigState) (key : Option (List UInt8)) (value : Int32) :
    ConfigState × ℤ :=
  match key with
  | none => (s, -1)
  | some key =>
      if strcmpEq key (literal "max_services") then
        ({ s with config := { s.config with maxServices := value } }, 0)
      else if strcmpEq key (literal "max_restarts") then
        ({ s with config := { s.config with maxRestarts := value } }, 0)
      else if strcmpEq key (literal "heartbeat_timeout") then
        ({ s with config := { s.config with heartbeatTimeout := value } }, 0)
      else (s, -1)

/-- `sm_config_set_string`; an argument is `none` for a null pointer. -/
def smConfigSetString (s : ConfigState) (sectionName key value : Option (List UInt8)) :
    ConfigState × ℤ :=
  match sectionName, key, value with
  | some sectionName, some key, some value =>
      let text := strncpyField configTextSize value
      if strcmpEq sectionName (literal "logging") then
        if strcmpEq key (literal "file") then
          ({ s with config := { s.config with logFile := text } }, 0)
        else (s, -1)
      else if strcmpEq sectionName (literal "socket") then
        if strcmpEq key (literal "path") then
          ({ s with config := { s.config with socketPath := text } }, 0)
        else (s, -1)
      else if strcmpEq sectionName (literal "persistence") then
        if strcmpEq key (literal "file") then
          ({ s with config := { s.config with persistenceFile := text } }, 0)
        else (s, -1)
      else (s, -1)
  | _, _, _ => (s, -1)

/-- The calls on the configuration. -/
inductive ConfigEvent
  | load (file : Option (List UInt8))
  | setInt (key : Option (List UInt8)) (value : Int32)
  | setString (sectionName key value : Option (List UInt8))
  | get

def configStep (s : ConfigState) : ConfigEvent → ConfigState
  | .load file => (smConfigLoad s file).1
  | .setInt key value => (smConfigSetInt s key value).1
  | .setString sectionName key value => (smConfigSetString s sectionName key value).1
  | .get => (smConfigGet s).2

end ServiceManager

end Shinigami
