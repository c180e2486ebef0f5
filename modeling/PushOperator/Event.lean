/-!
# Events

Events tell users what the operator did to their server. The reason of an event fixes its type and
the action it reports.
-/

namespace PushOperator

inductive EventType where
  | normal
  | warning
  deriving DecidableEq, Inhabited

def EventType.name : EventType → String
  | normal => "Normal"
  | warning => "Warning"

inductive Reason where
  | childCreated
  /-- A child was changed and has been put back. -/
  | driftCorrected
  /-- The job of a backup that is no longer wanted was deleted. -/
  | backupRemoved
  /-- An object of an earlier version of the operator was deleted. -/
  | legacyResourceRemoved
  | reconcileFailed
  deriving DecidableEq, Inhabited

namespace Reason

def all : List Reason :=
  [childCreated, driftCorrected, backupRemoved, legacyResourceRemoved, reconcileFailed]

def name : Reason → String
  | childCreated => "ChildCreated"
  | driftCorrected => "DriftCorrected"
  | backupRemoved => "BackupRemoved"
  | legacyResourceRemoved => "LegacyResourceRemoved"
  | reconcileFailed => "ReconcileFailed"

def ofName? (name : String) : Option Reason := all.find? (·.name == name)

def eventType : Reason → EventType
  | reconcileFailed => .warning
  | childCreated | driftCorrected | backupRemoved | legacyResourceRemoved => .normal

/-- What the operator did. -/
def action : Reason → String
  | childCreated => "Create"
  | driftCorrected => "Update"
  | backupRemoved | legacyResourceRemoved => "Delete"
  | reconcileFailed => "Reconcile"

end Reason

structure Event where
  reason : Reason
  message : String
  deriving DecidableEq, Inhabited

end PushOperator
