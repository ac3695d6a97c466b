import Tagwise.Js.Text
import Tagwise.Lib.Table

namespace Tagwise.Services
open Js

inductive IdentityStatus
  | active
  | blocked
  deriving DecidableEq, Repr

structure Identity where
  tag : JsString
  owner : JsString
  wallet : JsString
  bump : Nat
  displayName : Option JsString
  avatar : Option JsString
  bio : Option JsString
  preferredToken : Option JsString
  verified : Bool
  merchant : Bool
  status : IdentityStatus
  lastAppliedSlot : Nat
  createdAt : Nat
  deriving DecidableEq

/-- The `data` of an update: a field left out is a column left alone. -/
structure IdentityData where
  owner : Option JsString := none
  wallet : Option JsString := none
  bump : Option Nat := none
  displayName : Option (Option JsString) := none
  avatar : Option (Option JsString) := none
  bio : Option (Option JsString) := none
  preferredToken : Option (Option JsString) := none
  status : Option IdentityStatus := none
  lastAppliedSlot : Option Nat := none
  deriving DecidableEq

/-- A text of a caller as the database keeps it. -/
def storedText (text : Option JsString) : Option JsString := text.map throughUtf8

/-- Postgres has no text with U+0000 in it. -/
def storable (text : JsString) : Bool := !text.contains 0

/-- The profile's texts are the callers' own; the other columns are ASCII. -/
def IdentityData.apply (data : IdentityData) (row : Identity) : Identity :=
  { row with
    owner := data.owner.getD row.owner
    wallet := data.wallet.getD row.wallet
    bump := data.bump.getD row.bump
    displayName := (data.displayName.map storedText).getD row.displayName
    avatar := (data.avatar.map storedText).getD row.avatar
    bio := (data.bio.map storedText).getD row.bio
    preferredToken := (data.preferredToken.map storedText).getD row.preferredToken
    status := data.status.getD row.status
    lastAppliedSlot := data.lastAppliedSlot.getD row.lastAppliedSlot }

def IdentityData.storable (data : IdentityData) : Bool :=
  [data.displayName, data.avatar, data.bio, data.preferredToken].all
    (fun text => text.join.all Services.storable)

@[simp] theorem IdentityData.apply_tag (data : IdentityData) (row : Identity) :
    (data.apply row).tag = row.tag := rfl

/-- The `where` of an `updateMany`; the conditions given are all required. -/
structure IdentityWhere where
  tag : JsString
  lastAppliedSlotLte : Option Nat := none
  status : Option IdentityStatus := none
  deriving DecidableEq

def IdentityWhere.selects (cond : IdentityWhere) (row : Identity) : Bool :=
  row.tag = cond.tag && cond.lastAppliedSlotLte.all (row.lastAppliedSlot ≤ ·) &&
    cond.status.all (row.status = ·)

theorem IdentityWhere.selects_iff (cond : IdentityWhere) (row : Identity) :
    cond.selects row = true ↔ row.tag = cond.tag ∧
      (∀ s, cond.lastAppliedSlotLte = some s → row.lastAppliedSlot ≤ s) ∧
      ∀ s, cond.status = some s → row.status = s := by
  simp only [selects, Bool.and_eq_true, decide_eq_true_eq, and_assoc]
  cases cond.lastAppliedSlotLte <;> cases cond.status <;> simp

/-- The `data` of a create; the columns it lacks take the schema's defaults. -/
structure IdentityCreate where
  tag : JsString
  owner : JsString
  wallet : JsString
  bump : Nat
  status : Option IdentityStatus := none
  lastAppliedSlot : Nat
  deriving DecidableEq

def IdentityCreate.row (data : IdentityCreate) (now : Nat) : Identity where
  tag := data.tag
  owner := data.owner
  wallet := data.wallet
  bump := data.bump
  displayName := none
  avatar := none
  bio := none
  preferredToken := none
  verified := false
  merchant := false
  status := data.status.getD .active
  lastAppliedSlot := data.lastAppliedSlot
  createdAt := now

abbrev Identities := Lib.Table Identity.tag

end Tagwise.Services
