import BuildPlan.BuilderName
import BuildPlan.Text.Blank
import BuildPlan.Text.Quoted

/-!
# Mail notification

A notifier tells people by mail about the builds of some builders.  A notification service makes
notifiers from requests and may refuse a request; `smtpService` refuses requests without a builder and
requests with a malformed address.
-/

namespace BuildPlan

/-- Which build results are told. -/
inductive NotifyMode where
  | all
  | failing
  | problem
  deriving DecidableEq, Repr

/-- The modes in order, with their names. -/
def NotifyMode.names : List (String × NotifyMode) :=
  [("all", .all), ("failing", .failing), ("problem", .problem)]

/-- The name of a mode. -/
def NotifyMode.name : NotifyMode → String
  | .all => "all"
  | .failing => "failing"
  | .problem => "problem"

/-- A mail notifier. -/
structure MailNotifier where
  builderNames : List BuilderName
  sender : String
  extraRecipients : List String
  relayHost : String
  mode : NotifyMode
  addLogs : Bool
  sendToInterestedUsers : Bool
  deriving DecidableEq, Repr

/-- What a notifier is asked to do. -/
structure NotifierRequest where
  builderNames : List BuilderName
  sender : String
  recipients : List String
  relayHost : String
  deriving DecidableEq, Repr

/-- Why a request is refused. -/
inductive NotifierError where
  | invalidAddress (address : String)
  | noBuilders
  deriving DecidableEq, Repr

/-- The wording of an error. -/
def NotifierError.message : NotifierError → String
  | .invalidAddress address => "invalid email address: " ++ Text.quoted address
  | .noBuilders => "notifier needs at least one builder"

/-- Makes notifiers from requests. -/
abbrev NotifierService := NotifierRequest → Except NotifierError MailNotifier

/-- A part of an address: not empty, and without blanks, angle brackets and at signs. -/
def isAddressPart (cs : List Char) : Bool :=
  !cs.isEmpty && cs.all fun c => c != '@' && c != '<' && c != '>' && !Chars.isBlank c

/-- An address has two parts with an at sign between them. -/
def isAddress (s : String) : Bool :=
  match s.toList.splitOnP (· == '@') with
  | [name, host] => isAddressPart name && isAddressPart host
  | _ => false

/-- The service of a mail relay: failing builds only, with logs, also to the people involved. -/
def smtpService : NotifierService := fun request =>
  if request.builderNames.isEmpty then .error .noBuilders
  else
    match (request.sender :: request.recipients).find? fun address => !isAddress address with
    | some address => .error (.invalidAddress address)
    | none =>
      .ok
        { builderNames := request.builderNames
          sender := request.sender
          extraRecipients := request.recipients
          relayHost := request.relayHost
          mode := .failing
          addLogs := true
          sendToInterestedUsers := true }

end BuildPlan
