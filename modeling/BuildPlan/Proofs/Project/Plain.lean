import BuildPlan.Project

/-!
# Plain projects

Projects with the standard options: one of which only the name is given, and one with a worker and possibly
a parent.
-/

namespace BuildPlan

/-- The project of which no more than the name is given. -/
def ProjectConfig.plain (name : String) : ProjectConfig where
  name := name
  vcs := .svn
  vcsMode := .update
  repository := ""
  branch := ""
  credentials := none
  alwaysUseLatest := false
  workers := []
  buildSequence := []
  testSequence := [ProjectDraft.standardTest]
  dependencies := []
  schedule := {}
  lint := none
  emailSender := ""
  emailRecipients := []
  mailHost := "localhost"
  timeouts := ⟨3600, 3600, 3600⟩

/-- The project with one worker and possibly a parent. -/
def ProjectConfig.chained (name : String) (parent : Option String) : ProjectConfig :=
  { plain name with workers := ["w"], schedule := { dependent := parent } }

end BuildPlan
