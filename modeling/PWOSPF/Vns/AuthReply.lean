import PWOSPF.Firewall.RulesFile
import PWOSPF.Framework.Lines
import PWOSPF.Subsystem.HopCounts
import PWOSPF.Vns.Sha1Spec

/-!
# Authentication

`sr_handle_auth_request` of `sr_vns_comm.c` answers the salt of the server with the user name and the
digest of the salt and 64 bytes of the key file. A shorter first line is made up to 64 bytes by what
happens to be on the stack.
-/

namespace PWOSPF

open Framework

/-- What `main` was told, and the contents of the key file if it can be read. -/
structure VnsConfig where
  user : List UInt8
  host : List UInt8
  template : List UInt8
  topoId : UInt16
  authKey : Option (List UInt8)
  deriving DecidableEq, Repr

namespace VnsField

def mLen : PacketField := ⟨0, 4⟩
def mType : PacketField := ⟨4, 4⟩
def usernameLen : PacketField := ⟨8, 4⟩

end VnsField

open VnsField

def sizeofBase : Nat := 8
def sizeofAuthReply : Nat := 12
def authKeyLen : Nat := 64
def sha1Len : Nat := 20
def vnsAuthReply : UInt32 := 256

/-- The first `AUTH_KEY_LEN` bytes of `auth_key` after `fgets`, unless it read nothing. -/
def readAuthKey (env : Env) (file : List UInt8) : Option (List UInt8) :=
  match piecesFrom 10 authKeyLen authKeyLen [] file with
  | [] => none
  | line :: _ => some ((line ++ 0 :: (List.range authKeyLen).map env.bytes).take authKeyLen)

/-- `Message_Digest` in memory, each word in network byte order. -/
def digestBytes (x : Sha1Words) : List UInt8 :=
  [x.a, x.b, x.c, x.d, x.e].flatMap fun w => leBytes 4 (htonl w).toNat

/-- The message that is sent, if there is one. -/
def srHandleAuthRequest (cfg : VnsConfig) (env : Env) (req : Frame) : Exec (Option Frame) :=
  match cfg.authKey.bind (readAuthKey env) with
  | none => return none
  | some key => do
    let stack : SHA1Context :=
      ⟨sha1Start, 0, 0, (List.range 64).map env.bytes, 0, false, false⟩
    let len := ntohl (.ofNat (← req.get mLen))
    let salt ← req.load sizeofBase (len - 8).toNat
    let context ← sha1Input (sha1Reset stack) salt
    let context ← sha1Input context key
    let (context, computed) ← sha1Result context
    if computed then
      let lenUsername := cfg.user.length
      let len := sizeofAuthReply + lenUsername + sha1Len
      let ar : Frame := (List.range len).map env.bytes
      let ar ← ar.assign [(mLen, (htonl (.ofNat len)).toNat), (mType, (htonl vnsAuthReply).toNat),
        (usernameLen, (htonl (.ofNat lenUsername)).toNat)]
      let ar ← ar.store sizeofAuthReply (cfg.user ++ [0])
      return some (← ar.store (sizeofAuthReply + lenUsername) (digestBytes context.messageDigest))
    else return none

/-! ## The reply -/

/-- Numbers of messages, the first byte the most significant. -/
def netBytes (width n : Nat) : List UInt8 := (leBytes width n).reverse

def fipsBytes (x : Sha1Words) : List UInt8 := [x.a, x.b, x.c, x.d, x.e].flatMap fun w => netBytes 4 w.toNat

/-- The reply for a salt and 64 bytes of the key. -/
def authReply (cfg : VnsConfig) (salt key : List UInt8) : Frame :=
  netBytes 4 (sizeofAuthReply + cfg.user.length + sha1Len) ++ netBytes 4 vnsAuthReply.toNat ++
    netBytes 4 cfg.user.length ++ cfg.user ++ fipsBytes (fipsDigest (salt ++ key))

variable {cfg : VnsConfig} {env : Env} {req : Frame} {key salt : List UInt8}

@[simp] theorem netBytes_length (width n : Nat) : (netBytes width n).length = width := by
  rw [netBytes, List.length_reverse, leBytes_length]

theorem leBytes_htonl (x : UInt32) : leBytes 4 (htonl x).toNat = netBytes 4 x.toNat := by
  have hlen : ((leBytes 4 x.toNat).reverse).length = 4 := by simp
  have hback := leBytes_leValue (leBytes 4 x.toNat).reverse
  have hlt := leValue_lt (leBytes 4 x.toNat).reverse
  rw [hlen] at hback hlt
  rw [htonl, UInt32.toNat_ofNat_of_lt' hlt, hback, netBytes]

theorem digestBytes_eq (x : Sha1Words) : digestBytes x = fipsBytes x := by
  simp only [digestBytes, fipsBytes, leBytes_htonl]

theorem fipsBytes_length (x : Sha1Words) : (fipsBytes x).length = sha1Len := by
  simp [fipsBytes, sha1Len]

theorem readAuthKey_length {file : List UInt8} (h : readAuthKey env file = some key) :
    key.length = authKeyLen := by
  rw [readAuthKey] at h
  split at h
  · cases h
  · obtain rfl := Option.some.inj h
    rw [List.length_take, List.length_append, List.length_cons, List.length_map, List.length_range]
    omega

/-- The digest of the salt and the key. -/
theorem sha1_saltedKey (hkey : key.length = authKeyLen) (hsalt : salt.length < 2 ^ 32)
    {c : SHA1Context} (hroom : c.messageBlock.length = 64) :
    ∃ c₁ c₂ c₃, sha1Input (sha1Reset c) salt = .ok c₁ ∧ sha1Input c₁ key = .ok c₂ ∧
      sha1Result c₂ = .ok (c₃, true) ∧ c₃.messageDigest = fipsDigest (salt ++ key) := by
  have hstart : (Hashing.reading []).In (sha1Reset c) := ⟨sha1Reset_absorbed hroom, by decide⟩
  obtain ⟨c₁, hrun₁, hin₁⟩ := sha1Input_refines hstart salt
  rw [Hashing.call, List.nil_append, if_pos (Nat.lt_trans hsalt (by decide))] at hin₁
  obtain ⟨c₂, hrun₂, hin₂⟩ := sha1Input_refines hin₁ key
  have hfits : (salt ++ key).length < 2 ^ 61 := by
    rw [List.length_append, hkey, authKeyLen]
    omega
  rw [Hashing.call, if_pos hfits] at hin₂
  obtain ⟨c₃, ok, hrun₃, -, hseen⟩ := sha1Result_refines hin₂
  cases ok with
  | false => cases hseen
  | true => exact ⟨c₁, c₂, c₃, hrun₁, hrun₂, hrun₃, Option.some.inj hseen⟩

/-- What is overwritten at once is as if it had not been written. -/
theorem patch_over {f bs cs : List UInt8} {o : Nat} (hle : bs.length ≤ cs.length)
    (hin : o + cs.length ≤ f.length) : patch (patch f o bs) o cs = patch f o cs := by
  have hin' : o + bs.length ≤ f.length := by omega
  apply List.ext_getElem?
  intro i
  rw [patch_getElem? (by rw [patch_length hin']; exact hin), patch_getElem? hin, patch_getElem? hin']
  by_cases hover : o ≤ i ∧ i < o + cs.length
  · rw [if_pos hover, if_pos hover]
  · rw [if_neg hover, if_neg hover, if_neg (by omega)]

theorem patch_whole {f bs : List UInt8} (h : bs.length = f.length) : patch f 0 bs = bs := by
  rw [patch, List.take_zero, List.nil_append, Nat.zero_add, List.drop_of_length_le (Nat.le_of_eq h.symm),
    List.append_nil]

/-- The zero that `strcpy` writes behind the name is the first byte of the digest afterwards. -/
theorem patch_reply {f header name digest : List UInt8} (hdigest : 0 < digest.length)
    (hf : f.length = header.length + name.length + digest.length) :
    patch (patch (patch f 0 header) header.length (name ++ [0])) (header.length + name.length) digest =
      header ++ name ++ digest := by
  have hone : ([0] : List UInt8).length = 1 := rfl
  have hin : 0 + (header ++ name).length ≤ f.length := by
    rw [List.length_append]
    omega
  have hfirst := @patch_patch_next f 0 header (name ++ [0]) (by
    rw [List.length_append, hone]
    omega)
  have hsecond := @patch_patch_next f 0 (header ++ name) [0] (by
    rw [List.length_append, hone]
    omega)
  have hlast := @patch_patch_next f 0 (header ++ name) digest (by
    rw [List.length_append]
    omega)
  rw [Nat.zero_add] at hfirst
  rw [Nat.zero_add, List.length_append] at hsecond hlast
  have hroom : header.length + name.length + digest.length ≤ (patch f 0 (header ++ name)).length := by
    rw [patch_length hin, hf]
  rw [hfirst, ← List.append_assoc, ← hsecond,
    patch_over (show [0].length ≤ digest.length from hdigest) hroom, hlast,
    patch_whole (by rw [List.length_append, List.length_append, hf])]

/-- The length field of a message tells its length. -/
theorem mLen_get (hlen : sizeofBase ≤ req.length) (hframed : slice req 0 4 = netBytes 4 req.length)
    (hmax : req.length < 2 ^ 32) : ∃ v, req.get mLen = .ok v ∧ (ntohl (.ofNat v)).toNat = req.length := by
  have hin : mLen.offset + mLen.width ≤ req.length := Nat.le_trans (by decide) hlen
  have hword : (UInt32.ofNat req.length).toNat = req.length := UInt32.toNat_ofNat_of_lt' hmax
  refine ⟨leValue (slice req 0 4), by rw [Frame.get, Frame.load, if_pos hin]; rfl, ?_⟩
  have hbytes : slice req 0 4 = leBytes 4 (htonl (.ofNat req.length)).toNat := by
    rw [leBytes_htonl, hword, hframed]
  rw [hbytes, leValue_leBytes 4 _ (UInt32.toNat_lt _), UInt32.ofNat_toNat, ntohl_htonl, hword]

/-- Every request is answered with the user name and the digest of its salt and the key. -/
theorem srHandleAuthRequest_reply (hlen : sizeofBase ≤ req.length)
    (hframed : slice req 0 4 = netBytes 4 req.length) (hmax : req.length < 2 ^ 32)
    (huser : cfg.user.length < 2 ^ 31) (hkey : cfg.authKey.bind (readAuthKey env) = some key) :
    srHandleAuthRequest cfg env req = .ok (some (authReply cfg (req.drop sizeofBase) key)) := by
  obtain ⟨file, -, hfile⟩ := Option.bind_eq_some_iff.mp hkey
  have hkeylen := readAuthKey_length hfile
  obtain ⟨v, hget, hv⟩ := mLen_get hlen hframed hmax
  have h8 : (8 : UInt32).toNat = 8 := rfl
  have hcount : (ntohl (.ofNat v) - 8).toNat = req.length - 8 := by
    rw [UInt32.toNat_sub_of_le _ _ (by rw [UInt32.le_iff_toNat_le, hv]; exact hlen), hv, h8]
  have hsalt : req.load sizeofBase (ntohl (.ofNat v) - 8).toNat = .ok (req.drop sizeofBase) := by
    rw [hcount, Frame.load, if_pos (by rw [sizeofBase] at hlen ⊢; omega), slice,
      List.take_of_length_le (by rw [List.length_drop, sizeofBase])]
  obtain ⟨c₁, c₂, c₃, hrun₁, hrun₂, hrun₃, hdigest⟩ := @sha1_saltedKey key (req.drop sizeofBase)
    hkeylen (by rw [List.length_drop]; omega)
    ⟨sha1Start, 0, 0, (List.range 64).map env.bytes, 0, false, false⟩
    (by rw [List.length_map, List.length_range])
  have hwords : ∀ n : Nat, n < 2 ^ 32 → (UInt32.ofNat n).toNat = n := fun n hn =>
    UInt32.toNat_ofNat_of_lt' hn
  have htotal : sizeofAuthReply + cfg.user.length + sha1Len < 2 ^ 32 := by
    rw [sizeofAuthReply, sha1Len]
    omega
  have hheader : Frame.fieldBytes
      [(mLen, (htonl (.ofNat (sizeofAuthReply + cfg.user.length + sha1Len))).toNat),
        (mType, (htonl vnsAuthReply).toNat), (usernameLen, (htonl (.ofNat cfg.user.length)).toNat)] =
      netBytes 4 (sizeofAuthReply + cfg.user.length + sha1Len) ++ netBytes 4 vnsAuthReply.toNat ++
        netBytes 4 cfg.user.length := by
    simp only [Frame.fieldBytes, List.flatMap_cons, List.flatMap_nil, List.append_nil, mLen, mType,
      usernameLen, leBytes_htonl, hwords _ htotal, hwords cfg.user.length (by omega), List.append_assoc]
  have hheaderLen : (netBytes 4 (sizeofAuthReply + cfg.user.length + sha1Len) ++
      netBytes 4 vnsAuthReply.toNat ++ netBytes 4 cfg.user.length).length = sizeofAuthReply := by
    simp [sizeofAuthReply]
  have hroom : ((List.range (sizeofAuthReply + cfg.user.length + sha1Len)).map env.bytes).length =
      sizeofAuthReply + cfg.user.length + sha1Len := by
    rw [List.length_map, List.length_range]
  have hassign := @Frame.assign_adjacent ((List.range (sizeofAuthReply + cfg.user.length + sha1Len)).map
    env.bytes) [(mLen, (htonl (.ofNat (sizeofAuthReply + cfg.user.length + sha1Len))).toNat),
      (mType, (htonl vnsAuthReply).toNat), (usernameLen, (htonl (.ofNat cfg.user.length)).toNat)] 0
    ⟨rfl, rfl, rfl, trivial⟩ (by
      rw [hheader, hheaderLen, hroom]
      omega)
  rw [hheader] at hassign
  rw [srHandleAuthRequest, hkey]
  simp only [hget, ok_bind, hsalt, hrun₁, hrun₂, hrun₃, if_true, hassign, hdigest, digestBytes_eq]
  generalize hg : (List.range (sizeofAuthReply + cfg.user.length + sha1Len)).map env.bytes = garbage
    at hroom ⊢
  generalize hh : netBytes 4 (sizeofAuthReply + cfg.user.length + sha1Len) ++
    netBytes 4 vnsAuthReply.toNat ++ netBytes 4 cfg.user.length = header at hheaderLen ⊢
  generalize hd : fipsBytes (fipsDigest (req.drop sizeofBase ++ key)) = digest
  have hdigestLen : digest.length = sha1Len := hd ▸ fipsBytes_length _
  have hlen₁ : (patch garbage 0 header).length = garbage.length := patch_length (by omega)
  have hname : sizeofAuthReply + (cfg.user ++ [0]).length ≤ (patch garbage 0 header).length := by
    rw [hlen₁, hroom, List.length_append, List.length_singleton, sha1Len]
    omega
  have hlen₂ : (patch (patch garbage 0 header) sizeofAuthReply (cfg.user ++ [0])).length =
      garbage.length := (patch_length hname).trans hlen₁
  have hlast : sizeofAuthReply + cfg.user.length + digest.length ≤
      (patch (patch garbage 0 header) sizeofAuthReply (cfg.user ++ [0])).length := by
    rw [hlen₂, hroom, hdigestLen]
  rw [Frame.store_eq_ok.mpr ⟨hname, rfl⟩, ok_bind, Frame.store_eq_ok.mpr ⟨hlast, rfl⟩, ok_bind]
  have hreply := @patch_reply garbage header cfg.user digest (by rw [hdigestLen]; decide)
    (by rw [hroom, hheaderLen, hdigestLen])
  rw [hheaderLen] at hreply
  rw [hreply, authReply, hh, hd]
  rfl

section Demo

/-- A salt of two bytes. -/
def demoAuthRequest : Frame := [0, 0, 0, 10, 0, 0, 0, 128, 7, 9]

def demoKey : List UInt8 := List.replicate 64 97

def demoConfig : VnsConfig :=
  { user := [117, 49]
    host := [118, 104, 111, 115, 116]
    template := []
    topoId := 87
    authKey := some (demoKey ++ [10]) }

end Demo

end PWOSPF
