import ShortMessage.Card
import ShortMessage.Segment
import ShortMessage.Text.Quoted

/-!
# Settings

What a service can be told: room in parts, the card, how long messages are tracked, the preferred
route, and the log.

* `Settings`, with `Settings.standard`;
* `SettingsProblem`: what can be wrong with a part of the settings;
* `Settings.check`: the first part that is wrong, and why;
* `SettingsFailure`: every way to get no settings, with `message` and `causes`.
-/

namespace ShortMessage

/-- How long messages are tracked. -/
structure TrackingSettings where
  /-- How many seconds a message is tracked at most. -/
  retirementSeconds : Nat
  /-- How many seconds lie between two sweeps. -/
  sweepSeconds : Nat
deriving DecidableEq

/-- What is logged, and how it looks. -/
structure LogSettings where
  level : String
  format : String
deriving DecidableEq

namespace LogSettings

/-- The levels of a log, the most talkative first. -/
def levels : List String := ["trace", "debug", "info", "warn", "error"]

/-- The names of the formats of a log. -/
def formats : List String := ["pretty", "json"]

end LogSettings

/-- How lines of the log look. -/
inductive LogFormat
  | pretty
  | json
deriving DecidableEq

/-- A log format that there is not. -/
structure UnknownLogFormat where
  name : String
deriving DecidableEq

/-- What is wrong with the format, in words. -/
def UnknownLogFormat.message (u : UnknownLogFormat) : String :=
  s!"不支持的日志格式: {u.name}"

/-- The format of a name. -/
def LogFormat.ofText (name : String) : Except UnknownLogFormat LogFormat :=
  if name = "json" then .ok .json
  else if name = "pretty" then .ok .pretty
  else .error ⟨name⟩

/-- **Settings.** -/
structure Settings where
  limits : SegmentLimits
  card : CardSettings
  tracking : TrackingSettings
  /-- Whether the IP route is taken when it is there. -/
  prefersIms : Bool
  log : LogSettings
deriving DecidableEq

/-- The settings of a program that is told nothing. -/
def Settings.standard : Settings :=
  ⟨.standard, .standard, ⟨300, 30⟩, true, ⟨"info", "pretty"⟩⟩

/-! ### What can be wrong -/

/-- What can be wrong with a part of the settings. -/
inductive SettingsProblem
  | noRoom
  | concatHeaderTooLong (header room : Nat)
  | portHeaderTooLong (header room : Nat)
  | badCapacity (capacity : Nat)
  | noRecordSize
  | foreignUrl (url : String)
  | noUrl
  | noRetirement
  | noSweep
  | unknownLevel (level : String)
  | unknownFormat (format : String)
deriving DecidableEq

namespace SettingsProblem

/-- Words in brackets, each between quotes. -/
def listText (words : List String) : String :=
  "[" ++ ", ".intercalate (words.map Text.quoteText) ++ "]"

/-- The problem in words. -/
def message : SettingsProblem → String
  | .noRoom => "单条短信最大字节数必须大于0"
  | .concatHeaderTooLong header room => s!"级联头 {header} 字节超出单条容量 {room} 字节"
  | .portHeaderTooLong header room => s!"端口头 {header} 字节超出单条容量 {room} 字节"
  | .badCapacity capacity => s!"槽位容量必须在1到255之间，当前值: {capacity}"
  | .noRecordSize => "记录长度必须大于0"
  | .foreignUrl url => s!"不支持的数据库URL: {url}"
  | .noUrl => "sqlite 后端必须配置 database_url"
  | .noRetirement => "跟踪上下文超时时间必须大于0"
  | .noSweep => "清理间隔必须大于0"
  | .unknownLevel level =>
    s!"无效的日志级别: {level}，支持的级别: " ++ listText LogSettings.levels
  | .unknownFormat format =>
    s!"无效的日志格式: {format}，支持的格式: " ++ listText LogSettings.formats

end SettingsProblem

/-- Beside the header of a longer message there is room for a wide unit, and beside that of a port
for an octet. -/
def SegmentLimits.check (l : SegmentLimits) : Except SettingsProblem Unit :=
  if l.userData = 0 then .error .noRoom
  else if l.userData < l.concatHeader + 2 then
    .error (.concatHeaderTooLong l.concatHeader l.userData)
  else if l.userData ≤ l.portHeader then .error (.portHeaderTooLong l.portHeader l.userData)
  else .ok ()

/-- A card has from 1 to 255 slots, which are not empty; a table has a place of its own kind. -/
def CardSettings.check (s : CardSettings) : Except SettingsProblem Unit :=
  if s.capacity = 0 ∨ 255 < s.capacity then .error (.badCapacity s.capacity)
  else if s.recordSize = 0 then .error .noRecordSize
  else
    match s.backend, s.databaseUrl with
    | .memory, _ => .ok ()
    | .sqlite, none => .error .noUrl
    | .sqlite, some url => if "sqlite:".isPrefixOf url then .ok () else .error (.foreignUrl url)

/-- Neither of the two times is zero. -/
def TrackingSettings.check (s : TrackingSettings) : Except SettingsProblem Unit :=
  if s.retirementSeconds = 0 then .error .noRetirement
  else if s.sweepSeconds = 0 then .error .noSweep
  else .ok ()

/-- The log has a level and a format that there are. -/
def LogSettings.check (s : LogSettings) : Except SettingsProblem Unit :=
  if s.level ∉ levels then .error (.unknownLevel s.level)
  else if s.format ∉ formats then .error (.unknownFormat s.format)
  else .ok ()

/-- The parts of the settings that are checked. -/
inductive SettingsPart
  | limits
  | card
  | tracking
  | log
deriving DecidableEq

/-- Which part is wrong, in words. -/
def SettingsPart.message : SettingsPart → String
  | .limits => "分段配置验证失败"
  | .card => "槽位存储配置验证失败"
  | .tracking => "跟踪配置验证失败"
  | .log => "可观测性配置验证失败"

/-- Why there are no settings. -/
inductive SettingsFailure
  /-- A text is no TOML, or does not hold all settings in their own types. -/
  | badText
  | noFile (path : String)
  /-- A file is no TOML. -/
  | badFile
  /-- A value cannot be taken for that of a setting. -/
  | badValue
  | invalid (part : SettingsPart) (problem : SettingsProblem)
deriving DecidableEq

namespace SettingsFailure

/-- The failure in words; `causes` says more. -/
def message : SettingsFailure → String
  | .badText => "解析TOML配置失败"
  | .noFile path => s!"配置文件不存在: {path}"
  | .badFile => "构建配置失败"
  | .badValue => "反序列化配置失败"
  | .invalid part _ => part.message

/-- What lies behind a message, if the settings themselves are wrong. -/
def causes : SettingsFailure → List String
  | .invalid _ problem => [problem.message]
  | _ => []

end SettingsFailure

/-- **The check** of all settings: the first part that is wrong decides. -/
def Settings.check (s : Settings) : Except SettingsFailure Unit := do
  s.limits.check.mapError (.invalid .limits)
  s.card.check.mapError (.invalid .card)
  s.tracking.check.mapError (.invalid .tracking)
  s.log.check.mapError (.invalid .log)

/-- Settings that pass the check. -/
def Settings.checked (s : Settings) : Except SettingsFailure Settings := do
  s.check
  pure s

end ShortMessage
