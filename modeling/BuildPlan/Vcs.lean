import BuildPlan.CompileError
import BuildPlan.Text.Blank

/-!
# Version control systems

The systems a project may be hosted in, and the ways in which a worker refreshes its checkout.  Both
are read from a keyword in letters of any case with blanks around it.
-/

namespace BuildPlan

/-- A version control system. -/
inductive Vcs where
  | svn
  | git
  | hg
  | bzr
  | cvs
  deriving DecidableEq, Repr

namespace Vcs

/-- The systems in order, with their names. -/
def names : List (String × Vcs) :=
  [("svn", .svn), ("git", .git), ("hg", .hg), ("bzr", .bzr), ("cvs", .cvs)]

/-- The name of a system. -/
def name : Vcs → String
  | .svn => "svn"
  | .git => "git"
  | .hg => "hg"
  | .bzr => "bzr"
  | .cvs => "cvs"

/-- Reads a name. -/
def parse (text : String) : Except CompileError Vcs :=
  match names.lookup (Text.keyword text) with
  | some vcs => .ok vcs
  | none => .error (.unsupportedVcs (Text.trim text))

end Vcs

/-- How a worker refreshes its checkout before a build. -/
inductive VcsMode where
  /-- Update the working copy in place. -/
  | update
  /-- Keep a pristine copy and duplicate it for each build. -/
  | copy
  /-- Delete the working copy and check out from scratch. -/
  | clobber
  /-- Export a clean tree. -/
  | exported
  deriving DecidableEq, Repr

namespace VcsMode

/-- The modes in order, with their names. -/
def names : List (String × VcsMode) :=
  [("update", .update), ("copy", .copy), ("clobber", .clobber), ("export", .exported)]

/-- The name of a mode. -/
def name : VcsMode → String
  | .update => "update"
  | .copy => "copy"
  | .clobber => "clobber"
  | .exported => "export"

/-- Reads a name. -/
def parse (text : String) : Except CompileError VcsMode :=
  match names.lookup (Text.keyword text) with
  | some mode => .ok mode
  | none => .error (.invalidConfig (.unknownMode text))

end VcsMode

end BuildPlan
