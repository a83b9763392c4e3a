/-
# The same documents below a later root

A rotation changes the root role and leaves the other roles alone. What the client accepts below
the first root it then accepts below the last one, since timestamp, snapshot and targets are
verified with the same keys.
-/

import Useful.Tuf.Verify

namespace Useful.Tuf

open Useful.Math

section

variable {env : External} {st st' : RootState} {src src' : MetadataSource} {role now : String}

/-- Two roots give a role the same definition and the same keys. -/
def RootState.SameRole (env : External) (st st' : RootState) (role : String) : Prop :=
  ∃ r, roleDef env st.rootSigned role = .ok r ∧ roleDef env st'.rootSigned role = .ok r ∧
    ∀ keyid ∈ r.keyids, st.keys.lookup keyid = st'.keys.lookup keyid

theorem signatureLoop_congr {keys keys' : List (String × String)} {r : RoleDef} {message : Bytes}
    (h : ∀ keyid ∈ r.keyids, keys.lookup keyid = keys'.lookup keyid) (sigs : List TufSignature)
    (seen : List String) (valid : Nat) :
    signatureLoop env keys r message sigs seen valid =
      signatureLoop env keys' r message sigs seen valid := by
  induction sigs generalizing seen valid with
  | nil => rfl
  | cons s sigs ih =>
      rw [signatureLoop, signatureLoop]
      split
      · exact ih seen valid
      · rename_i hskip
        rw [h s.keyid (not_not.mp (not_or.mp hskip).1)]
        split
        · exact ih seen valid
        · split_ifs
          · exact ih _ _
          · exact ih seen valid

theorem verifyRoleDoc_congr {keys keys' : List (String × String)} {r : RoleDef} {doc : TufDoc}
    {expiry : Bool} (h : ∀ keyid ∈ r.keyids, keys.lookup keyid = keys'.lookup keyid) :
    verifyRoleDoc env doc keys r role now expiry = verifyRoleDoc env doc keys' r role now expiry := by
  simp only [verifyRoleDoc, signatureLoop_congr h]

theorem fetchPinned_congr {parent : Value} {missing : TufError}
    (hsame : RootState.SameRole env st st' role)
    (hsrc : ∀ version : Nat, src s!"{version}.{role}.json" = src' s!"{version}.{role}.json") :
    fetchPinned env src st role now parent missing =
      fetchPinned env src' st' role now parent missing := by
  obtain ⟨r, hr, hr', hkeys⟩ := hsame
  simp only [fetchPinned, hsrc, hr, hr']
  simp only [bind_of_eq_ok rfl, verifyRoleDoc_congr hkeys]

/-- A file name that ends in `oot.json` does not end in eight other characters. -/
theorem rootName_ne {name : String} (front back : List Char) (n : Nat)
    (hname : name.toList = front ++ back) (hlength : back.length = 8)
    (hback : back ≠ "oot.json".toList) : name ≠ rootName n := by
  rintro rfl
  have hroot : (rootName n).toList = ((toString n).toList ++ ".r".toList) ++ "oot.json".toList := by
    rw [rootName, String.toList_append, List.append_assoc]
    rfl
  rw [hroot] at hname
  exact hback (List.append_inj' hname (by rw [hlength]; rfl)).2.symm

/-- The name of a numbered document of another role. -/
theorem numberedName_ne {role : String} (front back : List Char) (version n : Nat)
    (hrole : (role ++ ".json").toList = front ++ back) (hlength : back.length = 8)
    (hback : back ≠ "oot.json".toList) : s!"{version}.{role}.json" ≠ rootName n := by
  have hname : (s!"{version}.{role}.json").toList =
      ((toString version).toList ++ ".".toList ++ front) ++ back := by
    rw [List.append_assoc, List.append_assoc, ← hrole]
    simp only [String.toList_append, List.append_assoc]
    rfl
  exact rootName_ne _ _ n hname hlength hback

/-- A client that accepts a source with its first root alone accepts it with later roots that leave
the other roles alone. -/
theorem verify_of_rootLoop {first : Bytes} {anchor final : RootState} {N : Nat} {v : VerifiedTuf}
    (hanchor : anchorRoot env first now = .ok (anchor, 1))
    (hloop : rootLoop env src now anchor 1 = .ok (final, N))
    (hsame : ∀ role ∈ ["timestamp", "snapshot", "targets"], RootState.SameRole env anchor final role)
    (hfiles : ∀ name, (∀ n, name ≠ rootName n) → src' name = src name)
    (hnone : src' (rootName 2) = none) (hunexpired : Unexpired final.rootSigned now)
    (hv : verify env src' first now = .ok v) :
    verify env src first now =
      .ok { v with rootVersion := N, rootSha256 := final.rootSha256 } := by
  have hloop' : rootLoop env src' now anchor 1 = .ok (anchor, 1) := by
    rw [rootLoop, if_neg (by decide), hnone]
  have htimestamp : src' "timestamp.json" = src "timestamp.json" :=
    hfiles _ fun n => rootName_ne "timest".toList "amp.json".toList n rfl rfl (by decide)
  have hnumbered : ∀ (role : String) (front back : List Char),
      (role ++ ".json").toList = front ++ back → back.length = 8 → back ≠ "oot.json".toList →
      ∀ version : Nat, src' s!"{version}.{role}.json" = src s!"{version}.{role}.json" :=
    fun role front back hrole hlength hback version =>
      hfiles _ fun n => numberedName_ne front back version n hrole hlength hback
  have hsnapshot := hnumbered "snapshot" "snaps".toList "hot.json".toList rfl rfl (by decide)
  have htargets := hnumbered "targets" "targ".toList "ets.json".toList rfl rfl (by decide)
  obtain ⟨r, hr, hr', hkeys⟩ := hsame "timestamp" (by simp)
  have hpinned : ∀ parent missing, fetchPinned env src final "snapshot" now parent missing =
      fetchPinned env src' anchor "snapshot" now parent missing := fun parent missing =>
    (fetchPinned_congr (hsame "snapshot" (by simp)) hsnapshot).symm
  have hpinned' : ∀ parent missing, fetchPinned env src final "targets" now parent missing =
      fetchPinned env src' anchor "targets" now parent missing := fun parent missing =>
    (fetchPinned_congr (hsame "targets" (by simp)) htargets).symm
  have hexpiry : checkExpiry final.rootSigned "root" now = .ok () := checkExpiry_eq_ok.mpr hunexpired
  simp only [verify, hanchor, bind_eq_ok, Prod.exists, Except.ok.injEq, Prod.mk.injEq,
    pure_eq_ok] at hv
  obtain ⟨_, _, ⟨rfl, rfl⟩, _, _, hfirst, _, -, tsBytes, htsBytes, ts, hts, tsRole, htsRole,
    tsSigned, htsSigned, tsVersion, htsVersion, snapSigned, snapBytes, snapVersion, hsnap, tgtSigned,
    tgtBytes, tgtVersion, htgt, table, htable, targets, htargets, rfl⟩ := hv
  obtain ⟨rfl, rfl⟩ : anchor = _ ∧ 1 = _ := Prod.ext_iff.mp (Except.ok.inj (hloop'.symm.trans hfirst))
  obtain rfl : r = tsRole := Except.ok.inj (hr.symm.trans htsRole)
  rw [htimestamp] at htsBytes
  rw [verifyRoleDoc_congr hkeys] at htsSigned
  rw [← hpinned] at hsnap
  rw [← hpinned'] at htgt
  simp only [verify, hanchor, bind_eq_ok, Prod.exists, Except.ok.injEq, Prod.mk.injEq,
    pure_eq_ok]
  exact ⟨_, _, ⟨rfl, rfl⟩, final, N, hloop, _, hexpiry, tsBytes, htsBytes, ts, hts, r, hr',
    tsSigned, htsSigned, tsVersion, htsVersion, snapSigned, snapBytes, snapVersion, hsnap, tgtSigned,
    tgtBytes, tgtVersion, htgt, table, htable, targets, htargets, rfl⟩

end

end Useful.Tuf
