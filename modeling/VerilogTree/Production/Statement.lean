import VerilogTree.Misuse
import VerilogTree.Store

/-! # Productions of statements and assignments -/

namespace VerilogTree

inductive StatementProduction where
  | taskEnable (expressions : List Expression) (identifier : Handle .identifier) (isSystem : Bool)
  | foreverLoop (body : Handle .statement)
  | forLoop (body : Handle .statement) (initial modify : Handle .singleAssignment)
      (condition : Expression)
  | whileLoop (body : Handle .statement) (condition : Expression)
  | repeatLoop (body : Handle .statement) (count : Expression)
  | caseItem (conditions : List Expression) (body : Option (Handle .statement))
  | defaultCaseItem (body : Option (Handle .statement))
  | caseStatement (expression : Expression) (cases : List (Handle .caseItem)) (form : CaseForm)
  | functionCaseStatement (expression : Expression) (cases : List (Handle .caseItem))
      (form : CaseForm)
  | conditional (statement : Handle .statement) (condition : Expression)
  | ifElse (branch : Handle .conditionalStatement) (elseStatement : Option (Handle .statement))
  | wait (expression : Expression) (statement : Handle .statement)
  | delayTiming (form : TimingForm) (statement : Option (Handle .statement))
      (control : Handle .delayCtrl)
  | eventTiming (form : TimingForm) (count : Option Expression)
      (statement : Option (Handle .statement)) (control : Handle .eventControl)
  | singleAssignment (lvalue : Handle .lvalue) (expression : Expression)
  | hybridAssignment (form : HybridForm) (assignment : Handle .singleAssignment)
  | hybridLvalueAssignment (form : HybridForm) (lvalue : Handle .lvalue)
  | blockingAssignment (lvalue : Handle .lvalue) (expression : Expression)
      (delayOrEvent : Option (Handle .timingControlStatement))
  | nonblockingAssignment (lvalue : Handle .lvalue) (expression : Expression)
      (delayOrEvent : Option (Handle .timingControlStatement))
  | continuousAssignment (assignments : List (Handle .singleAssignment))
      (driveStrength : Option (Handle .driveStrength)) (delay : Option (Handle .delay3))
  | block (form : BlockForm) (identifier : Option (Handle .identifier))
      (declarations : List BlockDeclaration) (statements : List (Handle .statement))
  | disable (identifier : Handle .identifier)
  | statement (attributes : Option (Handle .attributeList)) (isFunction : Bool)
      (data : StatementData)
  | nullStatement (attributes : Option (Handle .attributeList))
  | generateItem (data : StatementData)

/-- The default item of a list of cases: the first that is flagged as such. -/
def Store.defaultItem? (s : Store) (cases : List (Handle .caseItem)) :
    Option (Handle .caseItem) :=
  cases.find? s.isDefaultItem

/-- The node that a production makes. -/
def StatementProduction.node (s : Store) : StatementProduction → Except Misuse StatementNode
  | .taskEnable expressions identifier isSystem =>
    .ok (.taskEnable identifier expressions isSystem)
  | .foreverLoop body => .ok (.loop .forever body)
  | .forLoop body initial modify condition => .ok (.loop (.forLoop initial condition modify) body)
  | .whileLoop body condition => .ok (.loop (.whileLoop condition) body)
  | .repeatLoop body count => .ok (.loop (.repeatLoop count) body)
  | .caseItem conditions body => .ok (.caseItem conditions body false)
  | .defaultCaseItem body => .ok (.caseItem [] body true)
  | .caseStatement expression cases form =>
    .ok (.caseStatement expression cases form false (s.defaultItem? cases))
  | .functionCaseStatement expression cases form =>
    .ok (.caseStatement expression cases form true (s.defaultItem? cases))
  | .conditional stmt condition => .ok (.conditional condition stmt)
  | .ifElse branch elseStatement => .ok (.ifElse (Deque.empty.pushBack branch) elseStatement)
  | .wait expression stmt => .ok (.wait expression stmt)
  | .delayTiming form stmt control =>
    if form = .delayControl then .ok (.timingControl form (.delay control) none stmt)
    else .error (.delayTiming form)
  | .eventTiming form count stmt control =>
    if form.isEventControl then .ok (.timingControl form (.event control) count stmt)
    else .error (.eventTiming form)
  | .singleAssignment lvalue expression => .ok (.singleAssignment lvalue expression)
  | .hybridAssignment form assignment => .ok (.assignment (.hybrid form (.assignment assignment)))
  | .hybridLvalueAssignment form lvalue => .ok (.assignment (.hybrid form (.lvalue lvalue)))
  | .blockingAssignment lvalue expression delayOrEvent =>
    .ok (.assignment (.blocking lvalue expression delayOrEvent))
  | .nonblockingAssignment lvalue expression delayOrEvent =>
    .ok (.assignment (.nonblocking lvalue expression delayOrEvent))
  | .continuousAssignment assignments driveStrength delay =>
    .ok (.assignment (.continuous assignments driveStrength delay))
  | .block form identifier declarations statements =>
    .ok (.block form identifier declarations statements)
  | .disable identifier => .ok (.disable identifier)
  | .statement attributes isFunction data =>
    .ok (.statement attributes isFunction false (some data))
  | .nullStatement attributes => .ok (.statement attributes false false none)
  | .generateItem data => .ok (.statement none false true (some data))

end VerilogTree
