import ShortMessage.Text.Quoted

/-!
# Failures

Why an operation did not do what it was asked, as causes; the wording is in `Failure.message`.

* `BadArgument`: what was wrong with a caller's input;
* `Failure`: every way an operation fails, with `isRecoverable`, `isCallerError` and the text for
  end users, `userMessage`.
-/

namespace ShortMessage

/-- What was wrong with a caller's input. -/
inductive BadArgument
  | noDestination
  | noContent
  | noText
  | noData
  | dataTooLong (length limit : Nat)
  | charTooWide (capacity : Nat) (char : Char)
  | noRecord
  | recordTooLong (length size : Nat)
  | freeRecord
  | freeOnCard
  | unknownResult (code : Int)
  | unknownStatus (code : Int)
  | unknownFormat (name : String)
  | noMultimediaPdu
  | noPdu
  | noMessageName
  | noStoredText (name : String)
  | noStoredMultimedia (name : String)
  | noFlagChange
  | noImportAddress
  | invertedRange (first last : Nat)
  | stated (text : String)
deriving DecidableEq

/-- What is wrong with an argument, in words. -/
def BadArgument.message : BadArgument → String
  | .noDestination => "目标地址不能为空"
  | .noContent => "消息内容不能为空"
  | .noText => "待分段的文本不能为空"
  | .noData => "数据内容不能为空"
  | .dataTooLong length limit => s!"数据长度 {length} 超过单条短信上限 {limit}"
  | .charTooWide capacity c => s!"分段容量 {capacity} 无法容纳字符 " ++ Text.quoteChar c
  | .noRecord => "记录内容不能为空"
  | .recordTooLong length size => s!"记录长度 {length} 超过槽位大小 {size}"
  | .freeRecord => "写入记录的状态不能为 Free"
  | .freeOnCard => "写入 ICC 的状态不能为 Free"
  | .unknownResult code => s!"未知的结果码: {code}"
  | .unknownStatus code => s!"无效的槽位状态: {code}"
  | .unknownFormat name => s!"PDU 格式必须是 3gpp 或 3gpp2: {name}"
  | .noMultimediaPdu => "彩信 PDU 不能为空"
  | .noPdu => "PDU 不能为空"
  | .noMessageName => "消息标识不能为空"
  | .noStoredText name => s!"消息库中不存在消息 {name}"
  | .noStoredMultimedia name => s!"消息库中不存在彩信 {name}"
  | .noFlagChange => "没有需要更新的状态属性"
  | .noImportAddress => "导入短信的地址不能为空"
  | .invertedRange first last => s!"小区广播范围无效: {first}-{last}"
  | .stated text => text

/-- A fault of the library's own making or of what it keeps. -/
inductive InternalFault
  | corruptSlot (index status : Int)
  | unnamedMessage
  | stated (text : String)
deriving DecidableEq

/-- What went wrong inside, in words. -/
def InternalFault.message : InternalFault → String
  | .corruptSlot index status => s!"槽位 {index} 的状态值 {status} 已损坏"
  | .unnamedMessage => "消息库返回了空的消息标识"
  | .stated text => text

/-- A service that is not there. -/
inductive MissingService
  | archive
  | stated (text : String)
deriving DecidableEq

/-- What is missing, in words. -/
def MissingService.message : MissingService → String
  | .archive => "未配置消息库"
  | .stated text => text

/-- **Failures** of every operation of the library. -/
inductive Failure
  | invalidArgument (cause : BadArgument)
  | capacityExceeded (capacity : Nat)
  | notFound (index : Nat)
  | unavailable (service : MissingService)
  | staleCorrelation (text : String)
  | timeout (text : String)
  | database
  | configuration (text : String)
  | serialization (text : String)
  | internal (fault : InternalFault)
deriving DecidableEq

namespace Failure

/-- The text of a failure; that of a database failure is the database's own and is left out. -/
def message : Failure → String
  | .invalidArgument cause => "无效的参数: " ++ cause.message
  | .capacityExceeded capacity => s!"存储槽位已满: 容量 {capacity}"
  | .notFound index => s!"存储槽位不存在: {index}"
  | .unavailable service => "传输服务不可用: " ++ service.message
  | .staleCorrelation text => "过期的关联标识: " ++ text
  | .timeout text => "操作超时: " ++ text
  | .database => "数据库错误: "
  | .configuration text => "配置错误: " ++ text
  | .serialization text => "序列化错误: " ++ text
  | .internal fault => "内部错误: " ++ fault.message

/-- What an end user is told. -/
def userMessage : Failure → String
  | .invalidArgument _ => "请求参数有误"
  | .capacityExceeded _ => "存储空间已满"
  | .notFound _ => "请求的存储位置不存在"
  | .unavailable _ => "短信服务暂不可用"
  | .timeout _ => "操作超时，请稍后重试"
  | .staleCorrelation _ | .database | .configuration _ | .serialization _ | .internal _ =>
    "系统繁忙，请稍后重试"

/-- A recoverable failure is noted and never reaches a caller. -/
def isRecoverable : Failure → Bool
  | .staleCorrelation _ | .timeout _ => true
  | _ => false

/-- A caller's failure goes away when the caller asks for something else. -/
def isCallerError : Failure → Bool
  | .invalidArgument _ | .notFound _ => true
  | _ => false

/-- A chain of explanations, outermost first, as a failure: only the outermost is kept. -/
def ofChain : List String → Failure
  | [] => .internal (.stated "")
  | outermost :: _ => .internal (.stated outermost)

end Failure

end ShortMessage
