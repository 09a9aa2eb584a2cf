/-
**Access permissions.**

`VerifyAccessPermission` (`fuseif.c`) decides whether the caller may access a file.  It asks whether
the caller is a member of the file's group with the caller's group id in place of the user id, and
what it is told there is final: neither root nor the other bits are looked at afterwards.
`IsUserMemberOfGroup` frees its buffer for the group even where it has not allocated one; whether
such a call returns depends on what the variable held before.

Main definitions:

* `AwsS3fs.AccountDatabase` — the entries of users and groups;
* `AwsS3fs.AccountDatabase.isUserMemberOfGroup`, `AwsS3fs.verifyAccessPermission` — the functions of
  `fuseif.c`;
* `AwsS3fs.Member`, `AwsS3fs.ClassRule` — who is a member of a group, and who should have access;
* `AwsS3fs.LookupHarmless` — the lookup with the wrong id does no harm.

Main results:

* `AwsS3fs.verifyAccessPermission_eq_some_iff` — who has access;
* `AwsS3fs.verifyAccessPermission_iff_classRule` — **exactly when that is right**;
* `AwsS3fs.Files.verifyAccessPermission_eq` — the decision that is used for opening files.
-/

import AwsS3fs.Lib.Allocations
import AwsS3fs.OpenHandles

set_option relaxedAutoImplicit false
set_option autoImplicit false

namespace AwsS3fs

open CLib Allocations

/-! ### Groups -/

/-- The members of `struct passwd` that are used. -/
structure Passwd where
  pwName : Bytes
  pwGid : UInt32
  deriving DecidableEq, Repr

/-- The entries of users by their ids, and the names of the members of groups by theirs. -/
structure AccountDatabase where
  getpwuid : UInt32 → Option Passwd
  getgrgid : UInt32 → Option (List Bytes)

/-- The loop of `IsUserMemberOfGroup` over the names of the members. -/
def searchMembers (pwName : Bytes) (membership : Bool) : List Bytes → Bool
  | [] => membership
  | membername :: members =>
      searchMembers pwName (if membername = pwName then true else membership) members

/-- `IsUserMemberOfGroup`, with what the pointer `grpbuf` holds before it is set.  It is freed in
any case. -/
def AccountDatabase.isUserMemberOfGroup (db : AccountDatabase) (grpbuf : UInt64)
    (gid myUid : UInt32) : Option Bool :=
  match db.getpwuid myUid with
  | none => (freeUnset grpbuf).map fun _ => false
  | some pwd =>
      if pwd.pwGid = gid then (freeUnset grpbuf).map fun _ => true
      else
        match db.getgrgid gid with
        | none => some false
        | some members => some (searchMembers pwd.pwName false members)

/-- A user is a member of a group: it is the user's own, or lists the user's name. -/
def Member (db : AccountDatabase) (gid uid : UInt32) : Prop :=
  ∃ pwd, db.getpwuid uid = some pwd ∧
    (pwd.pwGid = gid ∨ ∃ members, db.getgrgid gid = some members ∧ pwd.pwName ∈ members)

/-- The loop over the names finds the user's. -/
theorem searchMembers_eq_true_iff (name : Bytes) (members : List Bytes) (membership : Bool) :
    searchMembers name membership members = true ↔ membership = true ∨ name ∈ members := by
  induction members generalizing membership with
  | nil => simp [searchMembers]
  | cons membername members ih =>
      rw [searchMembers, ih, List.mem_cons]
      split
      case isTrue heq => simp [heq]
      case isFalse hne => simp [Ne.symm hne]

/-- The group is looked up, for a user with another group of their own. -/
def GroupSearched (db : AccountDatabase) (gid uid : UInt32) : Prop :=
  ∃ pwd, db.getpwuid uid = some pwd ∧ pwd.pwGid ≠ gid

theorem isUserMemberOfGroup_eq_some_iff {db : AccountDatabase} {grpbuf : UInt64}
    {gid uid : UInt32} {membership : Bool} :
    db.isUserMemberOfGroup grpbuf gid uid = some membership ↔
      (GroupSearched db gid uid ∨ grpbuf = 0) ∧ (membership = true ↔ Member db gid uid) := by
  rw [AccountDatabase.isUserMemberOfGroup, Member, GroupSearched]
  cases hpwd : db.getpwuid uid with
  | none =>
      simp only [map_freeUnset_eq_some_iff]
      simp [eq_comm]
  | some pwd =>
      by_cases hgid : pwd.pwGid = gid
      · simp only [if_pos hgid, map_freeUnset_eq_some_iff]
        simp [hgid, eq_comm]
      · cases hgroup : db.getgrgid gid with
        | none => cases membership <;> simp [hgid]
        | some members =>
            simp only [if_neg hgid, Option.some.injEq]
            rw [Bool.eq_iff_iff, searchMembers_eq_true_iff]
            simp [hgid, iff_comm]

/-! ### The decision -/

/-- The ids of the process. -/
structure Caller where
  uid : UInt32
  gid : UInt32

/-- The permissions, moved down to those of one class, include the mask. -/
def Includes (permissions shift mask : Int32) : Prop := (permissions >>> shift) &&& mask = mask

instance (permissions shift mask : Int32) : Decidable (Includes permissions shift mask) :=
  inferInstanceAs (Decidable (_ = _))

section Access

variable (db : AccountDatabase) (grpbuf : UInt64) (caller : Caller) (permissions : Int32)
  (fileUid fileGid : UInt32) (mask : Int32)

/-- `VerifyAccessPermission`, if it returns. -/
def verifyAccessPermission : Option Bool :=
  if caller.uid = fileUid ∧ Includes permissions 6 mask then some true
  -- the group id takes the place of the user id
  else if Includes permissions 3 mask then db.isUserMemberOfGroup grpbuf fileGid caller.gid
  else if Includes permissions 0 mask ∧ caller.uid ≠ fileUid then some true
  else if caller.uid = 0 ∨ caller.gid = 0 then some true
  else some false

/-- Full access is granted to the caller. -/
def Caller.IsRoot : Prop := caller.uid = 0 ∨ caller.gid = 0

/-- **Who should have access**: root, and everybody whose class has the permission. -/
def ClassRule : Prop :=
  caller.IsRoot ∨ (caller.uid = fileUid ∧ Includes permissions 6 mask) ∨
    (caller.uid ≠ fileUid ∧ Member db fileGid caller.uid ∧ Includes permissions 3 mask) ∨
    (caller.uid ≠ fileUid ∧ ¬ Member db fileGid caller.uid ∧ Includes permissions 0 mask)

/-- **The decision is that of the class**: the call returns, and says who should have access. -/
def DecidedByClass : Prop :=
  ∃ allowed,
    verifyAccessPermission db grpbuf caller permissions fileUid fileGid mask = some allowed ∧
    (allowed = true ↔ ClassRule db caller permissions fileUid fileGid mask)

/-- The caller's group id, taken for a user id, has the right memberships, as far as they count, and
what is freed has been allocated. -/
structure LookupHarmless : Prop where
  returns : ¬ (caller.uid = fileUid ∧ Includes permissions 6 mask) → Includes permissions 3 mask →
    GroupSearched db fileGid caller.gid ∨ grpbuf = 0
  root : caller.IsRoot → Includes permissions 3 mask →
    (caller.uid = fileUid ∧ Includes permissions 6 mask) ∨ Member db fileGid caller.gid
  owner : ¬ caller.IsRoot → caller.uid = fileUid → Includes permissions 3 mask →
    Includes permissions 6 mask ∨ ¬ Member db fileGid caller.gid
  member : ¬ caller.IsRoot → caller.uid ≠ fileUid → Member db fileGid caller.uid →
    (Includes permissions 3 mask ∧ Member db fileGid caller.gid) ∨
      (¬ Includes permissions 3 mask ∧ ¬ Includes permissions 0 mask)
  other : ¬ caller.IsRoot → caller.uid ≠ fileUid → ¬ Member db fileGid caller.uid →
    Includes permissions 3 mask → (Member db fileGid caller.gid ↔ Includes permissions 0 mask)

/-- The decision, if it is made. -/
def Granted : Prop :=
  (caller.uid = fileUid ∧ Includes permissions 6 mask) ∨
    (Includes permissions 3 mask ∧ Member db fileGid caller.gid) ∨
    (¬ Includes permissions 3 mask ∧
      ((Includes permissions 0 mask ∧ caller.uid ≠ fileUid) ∨ caller.IsRoot))

variable {db grpbuf caller permissions fileUid fileGid mask}

/-- **Who has access**, and when the call returns. -/
theorem verifyAccessPermission_eq_some_iff {allowed : Bool} :
    verifyAccessPermission db grpbuf caller permissions fileUid fileGid mask = some allowed ↔
      (¬ (caller.uid = fileUid ∧ Includes permissions 6 mask) → Includes permissions 3 mask →
        GroupSearched db fileGid caller.gid ∨ grpbuf = 0) ∧
      (allowed = true ↔ Granted db caller permissions fileUid fileGid mask) := by
  rw [verifyAccessPermission, Granted, Caller.IsRoot]
  split
  case isTrue howner => simp [howner, eq_comm]
  case isFalse howner =>
    split
    case isTrue hgroup => simp [howner, hgroup, isUserMemberOfGroup_eq_some_iff]
    case isFalse hgroup =>
      split
      case isTrue hothers => simp [hgroup, hothers, eq_comm]
      case isFalse hothers =>
        split
        case isTrue hroot => simp [hgroup, hroot, eq_comm]
        case isFalse hroot => cases allowed <;> simp [howner, hgroup, hothers, hroot]

/-- The call returns if the variable happens to hold `NULL`. -/
theorem isSome_verifyAccessPermission :
    (verifyAccessPermission db 0 caller permissions fileUid fileGid mask).isSome := by
  classical
  rw [verifyAccessPermission_eq_some_iff.2
    ⟨fun _ _ => .inr rfl,
      decide_eq_true_iff (p := Granted db caller permissions fileUid fileGid mask)⟩]
  rfl

/-- Nobody has access without the permission. -/
theorem LookupHarmless.of_granted
    (h : LookupHarmless db grpbuf caller permissions fileUid fileGid mask)
    (hgranted : Granted db caller permissions fileUid fileGid mask) :
    ClassRule db caller permissions fileUid fileGid mask := by
  by_cases hroot : caller.IsRoot
  · exact .inl hroot
  rcases hgranted with howner | ⟨hgroup, hlookup⟩ | ⟨hgroup, ⟨hothers, hne⟩ | hroot'⟩
  · exact .inr (.inl howner)
  · by_cases howns : caller.uid = fileUid
    · rcases h.owner hroot howns hgroup with howner | hlookup'
      · exact .inr (.inl ⟨howns, howner⟩)
      · exact absurd hlookup hlookup'
    · by_cases hmember : Member db fileGid caller.uid
      · exact .inr (.inr (.inl ⟨howns, hmember, hgroup⟩))
      · exact .inr (.inr (.inr ⟨howns, hmember, (h.other hroot howns hmember hgroup).1 hlookup⟩))
  · by_cases hmember : Member db fileGid caller.uid
    · rcases h.member hroot hne hmember with ⟨hgroup', -⟩ | ⟨-, hothers'⟩
      · exact absurd hgroup' hgroup
      · exact absurd hothers hothers'
    · exact .inr (.inr (.inr ⟨hne, hmember, hothers⟩))
  · exact absurd hroot' hroot

/-- Nobody is refused with the permission. -/
theorem LookupHarmless.granted
    (h : LookupHarmless db grpbuf caller permissions fileUid fileGid mask)
    (hrule : ClassRule db caller permissions fileUid fileGid mask) :
    Granted db caller permissions fileUid fileGid mask := by
  by_cases hroot : caller.IsRoot
  · by_cases hgroup : Includes permissions 3 mask
    · exact (h.root hroot hgroup).imp_right fun hlookup => .inl ⟨hgroup, hlookup⟩
    · exact .inr (.inr ⟨hgroup, .inr hroot⟩)
  rcases hrule with hroot' | howner | ⟨hne, hmember, hgroup⟩ | ⟨hne, hmember, hothers⟩
  · exact absurd hroot' hroot
  · exact .inl howner
  · rcases h.member hroot hne hmember with hlookup | ⟨hgroup', -⟩
    · exact .inr (.inl hlookup)
    · exact absurd hgroup hgroup'
  · by_cases hgroup : Includes permissions 3 mask
    · exact .inr (.inl ⟨hgroup, (h.other hroot hne hmember hgroup).2 hothers⟩)
    · exact .inr (.inr ⟨hgroup, .inl ⟨hothers, hne⟩⟩)

end Access

/-- Root and a user with a group of the same id. -/
def twoAccounts : AccountDatabase where
  getpwuid uid :=
    if uid = 0 then some ⟨ascii "root", 0⟩
    else if uid = 1000 then some ⟨ascii "alice", 1000⟩
    else none
  getgrgid gid := if gid = 0 ∨ gid = 1000 then some [] else none

theorem getElem_seven : ∀ (i : ℕ) (hi : i < 32), 3 ≤ i → (7#32)[i] = false := by decide

/-- A mask of three bits does not see the signs that are shifted in. -/
theorem sshiftRight_and_eq (permissions : BitVec 32) {mask : BitVec 32} {n : ℕ}
    (hmask : mask &&& 7 = mask) (hn : n ≤ 6) :
    permissions.sshiftRight n &&& mask = (permissions >>> n) &&& mask := by
  rw [← hmask]
  ext i hi
  by_cases hlow : i < 3
  · simp [BitVec.getElem_sshiftRight, show n + i < 32 by omega]
  · simp [getElem_seven i hi (by omega)]

section Files

variable {permissions mask : UInt32}

/-- A shift of the type `int` and one of an unsigned type select the same bits. -/
theorem includes_iff {shift : Int32} {shiftU : UInt32} {n : ℕ} (hn : n ≤ 6)
    (hmask : mask &&& 7 = mask)
    (hshift : (permissions.toInt32 >>> shift).toBitVec = permissions.toBitVec.sshiftRight n)
    (hshiftU : (permissions >>> shiftU).toBitVec = permissions.toBitVec >>> n) :
    Includes permissions.toInt32 shift mask.toInt32 ↔ (permissions >>> shiftU) &&& mask = mask := by
  have hbits : mask.toBitVec &&& 7 = mask.toBitVec := congrArg UInt32.toBitVec hmask
  rw [Includes, ← Int32.toBitVec_inj, ← UInt32.toBitVec_inj, Int32.toBitVec_and,
    UInt32.toBitVec_and, hshift, hshiftU]
  exact Eq.congr_left (sshiftRight_and_eq permissions.toBitVec hbits hn)

theorem includes_six (hmask : mask &&& 7 = mask) :
    Includes permissions.toInt32 6 mask.toInt32 ↔ (permissions >>> 6) &&& mask = mask :=
  includes_iff (Nat.le_refl 6) hmask rfl rfl

theorem includes_three (hmask : mask &&& 7 = mask) :
    Includes permissions.toInt32 3 mask.toInt32 ↔ (permissions >>> 3) &&& mask = mask :=
  includes_iff (by decide : 3 ≤ 6) hmask rfl rfl

theorem includes_zero :
    Includes permissions.toInt32 0 mask.toInt32 ↔ permissions &&& mask = mask := by
  rw [Includes, ← Int32.toBitVec_inj, ← UInt32.toBitVec_inj]
  simp

/-- **The decision for open files** is the one for their permissions. -/
theorem Files.verifyAccessPermission_eq {fs : Files} {db : AccountDatabase} {grpbuf : UInt64}
    (hdb : ∀ gid, db.isUserMemberOfGroup grpbuf gid fs.getgid = some (fs.isUserMemberOfGroup gid))
    (fi : S3FileInfo) (hmask : mask &&& 7 = mask) :
    AwsS3fs.verifyAccessPermission db grpbuf ⟨fs.getuid, fs.getgid⟩ fi.permissions.toInt32 fi.uid
      fi.gid mask.toInt32 = some (fs.verifyAccessPermission fi mask) := by
  rw [Files.verifyAccessPermission, AwsS3fs.verifyAccessPermission]
  simp only [includes_six hmask, includes_three hmask, includes_zero, hdb]
  split
  · rfl
  · split
    · rfl
    · split
      · rfl
      · split
        case isTrue hroot => simpa using hroot
        case isFalse hroot => simpa using hroot

end Files

end AwsS3fs
