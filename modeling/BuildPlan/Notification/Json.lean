import BuildPlan.Json.Shape
import BuildPlan.Notification

/-!
# JSON form of notifiers

A mode and the name of a builder are bare names, a notifier is a record.
-/

namespace BuildPlan

/-- The JSON form of the name of a builder. -/
def BuilderName.toJson (n : BuilderName) : Json :=
  .str n.text

/-- Reads the name of a builder; any text is one. -/
def BuilderName.ofJson? (j : Json) : Option BuilderName :=
  j.str?.map BuilderName.mk

/-- The JSON form of a list of names. -/
def BuilderName.listToJson (ns : List BuilderName) : Json :=
  .arr (ns.map BuilderName.toJson)

/-- The JSON form of a mode. -/
def NotifyMode.toJson (m : NotifyMode) : Json :=
  .str m.name

/-- Reads a mode. -/
def NotifyMode.ofJson? (j : Json) : Option NotifyMode :=
  Json.name? .direct NotifyMode.names j

namespace MailNotifier

/-- The names of the fields of a notifier, in order. -/
def fieldNames : List String :=
  ["builder_names", "from", "extra_recipients", "relay_host", "mode", "add_logs",
    "send_to_interested_users"]

/-- The JSON form of a notifier. -/
def toJson (n : MailNotifier) : Json :=
  .obj [
    ("builder_names", BuilderName.listToJson n.builderNames),
    ("from", .str n.sender),
    ("extra_recipients", .strings n.extraRecipients),
    ("relay_host", .str n.relayHost),
    ("mode", n.mode.toJson),
    ("add_logs", .bool n.addLogs),
    ("send_to_interested_users", .bool n.sendToInterestedUsers)]

/-- Reads a notifier.  Its addresses are not checked. -/
def ofJson? (j : Json) : Option MailNotifier := do
  let ms ← j.members? fieldNames
  let builderNames ← Json.field? ms "builder_names" (Json.list? BuilderName.ofJson?)
  let sender ← Json.field? ms "from" Json.str?
  let extraRecipients ← Json.field? ms "extra_recipients" Json.strings?
  let relayHost ← Json.field? ms "relay_host" Json.str?
  let mode ← Json.field? ms "mode" NotifyMode.ofJson?
  let addLogs ← Json.field? ms "add_logs" Json.bool?
  let sendToInterestedUsers ← Json.field? ms "send_to_interested_users" Json.bool?
  return {
    builderNames, sender, extraRecipients, relayHost, mode, addLogs, sendToInterestedUsers }

end MailNotifier

end BuildPlan
