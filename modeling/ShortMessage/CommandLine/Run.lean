import ShortMessage.CommandLine.Arguments
import ShortMessage.Json.Message
import ShortMessage.MessageId.Text
import ShortMessage.Service
import ShortMessage.Settings.Load

/-!
# Running a command

A command loads the settings, does its work and reports in lines of text, or says why it did not.

* `Report`: how a run ends;
* `runCommand`: one command, over the tables of a shelf;
* `run`: the arguments of a run, and its report.
-/

namespace ShortMessage.CommandLine

/-- How a run ends. -/
inductive Report
  | done (output : String)
  | failed (message : String)
  /-- The arguments are no request. -/
  | misused
  /-- The service is up and goes on until it is told to end. -/
  | serving
deriving DecidableEq

namespace Report

/-- The exit code of a run. -/
def code : Report → Nat
  | .done _ | .serving => 0
  | .failed _ => 1
  | .misused => 2

/-- Lines of text, each with its end. -/
def lines (l : List String) : String :=
  String.join (l.map (· ++ "\n"))

end Report

/-- The lines of a run, or why there are none. -/
abbrev Lines := Except String (List String)

/-- A failure as the user is told of it. -/
def failing {α : Type} : Except Failure α → Except String α
  | .ok a => .ok a
  | .error e => .error e.message

/-- Reads hexadecimal digits that the user typed. -/
def readHex (text : String) : Except String Octets :=
  (Octets.ofHex text).mapError Octets.HexFault.message

/-! ### Cutting a text -/

/-- The length of a part, as it is shown: that of its payload. -/
def shownLength (p : Part) : Nat :=
  p.payload.length

/-- A part on a line: its place, its length and its text. -/
def partLine (p : Part) : String :=
  s!"[{p.index + 1}/{p.total}] {shownLength p} 单元: " ++ Text.quoteText (p.text.getD "")

/-- Shows the parts that a text is cut into. -/
def segment (settings : Settings) (text : String) : Lines := do
  let parts ← failing (settings.limits.segment (.text text))
  let encoding := (parts.head?.map fun p => Encoding.spelling.name p.encoding).getD ""
  pure (s!"编码: {encoding}，分段数: {parts.length}" :: parts.map partLine)

/-! ### Sending -/

/-- What became of a token; one that nobody fired has timed out. -/
def resultOf (outcomes : List TokenEvent) (t : Token) : SendResult :=
  match outcomes.lookup t with
  | some (.fired result) => result
  | _ => .timeout

/-- Confirms the IP route, as no carrier will. -/
def confirm (s : Service) : Option MessageRef → Service
  | none => s
  | some ref => s.withDispatcher (s.dispatcher.report .sms ref true)

/-- The first token is for the send, the others for its parts. -/
def sendTokens (partCount : Nat) : Token × List Token :=
  (⟨0⟩, (List.range partCount).map fun i => ⟨i + 1⟩)

/-- What is shown of a send once its results are in. -/
def sendLines (receipt : Receipt) (outcomes : List TokenEvent) (sent : Token)
    (delivered : List Token) : List String :=
  s!"消息 {receipt.message.toText} 已分发，分段数 {receipt.partCount}，通道 {receipt.route.text}" ::
    s!"发送结果: {(resultOf outcomes sent).text}" ::
    delivered.mapIdx fun i t => s!"分段 {i + 1} 投递结果: {(resultOf outcomes t).text}"

/-- Sends a text and waits for its results. -/
def send (s : Service) (message : MessageId) (destination text : String)
    (serviceCentre : Option String) : Lines × Service :=
  match s.settings.limits.segment (.text text) with
  | .error e => (.error e.message, s)
  | .ok parts =>
    let (sent, delivered) := sendTokens parts.length
    let request : SendRequest := ⟨destination, serviceCentre, .text text, [sent], delivered⟩
    let (receipt, d) := s.dispatcher.send 0 message request
    let s := s.withDispatcher d
    match receipt with
    | .error e => (.error e.message, s)
    | .ok receipt =>
      let s := (confirm s receipt.ref).wait (1000 * s.settings.tracking.retirementSeconds)
      (.ok (sendLines receipt s.dispatcher.outcomes sent delivered), s)

/-! ### The card -/

/-- A record on a line of its own. -/
def recordLine (r : CardRecord) : String :=
  s!"[{r.index}] {r.status.text} {r.data.toHex}"

/-- Shows the messages on the card. -/
def listCard (s : Service) : Lines := do
  let records ← failing s.dispatcher.cardRecords
  pure (if records.isEmpty then ["ICC 中没有短信"] else records.map recordLine)

/-- Says whether a change of the card was made. -/
def changed (s : Service) (yes no : String)
    (r : Except Failure Bool × Dispatcher LoopbackRadio) : Lines × Service :=
  ((failing r.1).map fun made => [if made then yes else no], s.withDispatcher r.2)

/-- Copies a message to the card; nothing is written unless all digits can be read. -/
def writeCard (s : Service) (pdu : String) (status : Int) (smsc : Option String) :
    Lines × Service :=
  let octets := do
    let pdu ← readHex pdu
    let smsc ← smsc.mapM readHex
    pure (smsc, pdu)
  match octets with
  | .error message => (.error message, s)
  | .ok (smsc, pdu) => changed s "写入成功" "写入失败" (s.dispatcher.copyToCard smsc pdu status)

/-- Updates a message on the card. -/
def updateCard (s : Service) (index : Nat) (status : Int) (pdu : String) : Lines × Service :=
  match readHex pdu with
  | .error message => (.error message, s)
  | .ok pdu => changed s "更新成功" "更新失败" (s.dispatcher.updateOnCard index status pdu)

/-- Deletes a message from the card. -/
def eraseCard (s : Service) (index : Nat) : Lines × Service :=
  changed s "擦除成功" "擦除失败" (s.dispatcher.deleteFromCard index)

/-! ### Runs -/

/-- The service that a command works with. -/
def openService (settings : Settings) (shelf : TableShelf) : Except String Service :=
  (Service.open? settings settings.prefersIms Service.usualDelay shelf).mapError
    ServiceFailure.message

/-- What a run reports that ends with these lines. -/
def report : Lines → Report
  | .ok l => .done (Report.lines l)
  | .error message => .failed message

/-- Runs a command that needs a service, and puts its card back onto the shelf. -/
def withService (settings : Settings) (shelf : TableShelf) (work : Service → Lines × Service) :
    Report × TableShelf :=
  match openService settings shelf with
  | .error message => (.failed message, shelf)
  | .ok s =>
    let (l, s) := work s
    (report l, s.dispatcher.card.save shelf)

/-- **Runs a command.**  A send gets the given identity. -/
def runCommand (settings : Settings) (shelf : TableShelf) (message : MessageId) :
    Command → Report × TableShelf
  | .segment text => (report (segment settings text), shelf)
  | .serve =>
    match openService settings shelf with
    | .error message => (.failed message, shelf)
    | .ok s => (.serving, s.dispatcher.card.save shelf)
  | .send destination text serviceCentre =>
    withService settings shelf fun s => send s message destination text serviceCentre
  | .listCard => withService settings shelf fun s => (listCard s, s)
  | .writeCard pdu status smsc => withService settings shelf fun s => writeCard s pdu status smsc
  | .updateCard index status pdu =>
    withService settings shelf fun s => updateCard s index status pdu
  | .eraseCard index => withService settings shelf fun s => eraseCard s index

/-- The version that the program shows. -/
def version : String := "1.0.0"

/-- The name that the program goes by. -/
def name : String := "sms-dispatch"

/-- **Runs the program** with its arguments. -/
def run (around : Surroundings) (shelf : TableShelf) (message : MessageId)
    (arguments : List String) : Report × TableShelf :=
  match Request.ofArguments? arguments with
  | none => (.misused, shelf)
  | some .version => (.done (Report.lines [name ++ " " ++ version]), shelf)
  | some (.run i) =>
    match Settings.load around i.path with
    | .error _ => (.failed ("加载配置失败: " ++ i.path.getD "默认路径"), shelf)
    | .ok settings => runCommand settings shelf message i.command

end ShortMessage.CommandLine
