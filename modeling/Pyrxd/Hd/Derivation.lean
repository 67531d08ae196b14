import Pyrxd.Hd.Bip32

/-!
# Public and private derivation agree

With what secp256k1 promises (`HdCurve.Lawful`), a child derived from an
account's `Xpub` is the `Xpub` of the child derived from its `Xprv`
(`Xprv.ckd_of_xpub`), so a watch-only builder and the wallet speak of the same
addresses (`HdWallet.child_of_xpub`).
-/

namespace Pyrxd.Hd

open Pyrxd.Lib Pyrxd.Tx
open Pyrxd.Swap (Curve PrivateKey)

variable {Key Secret : Type} {hd : HdCurve Key Secret}

/-- What secp256k1 and its bindings promise: keys and secrets are read back from
their bytes, and the points that `multiply` and `combine` give are those of the
scalar and of the sum. -/
structure HdCurve.Lawful (hd : HdCurve Key Secret) : Prop where
  ripemd_length : ∀ b, (hd.ripemd160 b).length = 20
  hmac_length : ∀ k m, (hd.hmacSha512 k m).length = 64
  format_length : ∀ k, (hd.format k true).length = 33
  parse_format : ∀ k, hd.parse (hd.format k true) = .ok k
  secret_length : ∀ s, (hd.secretBytes s).length = 32
  parse_secret : ∀ s, hd.parseSecret (hd.secretBytes s) = .ok s
  scalar_lt : ∀ s, hd.scalar s < curveN
  fromInt_scalar : ∀ s, hd.fromInt (hd.scalar s) = .ok s
  fromPoint_point : ∀ k, hd.fromPoint (hd.point k) = .ok k
  multiply_base : ∀ k p, hd.multiply curveG k = .ok p →
    ∃ t, hd.scalar t = k ∧ p = hd.point (hd.publicKey t)
  combine_points : ∀ s t p, hd.combine (hd.point (hd.publicKey s))
    (hd.point (hd.publicKey t)) = .ok p →
    ∃ u, hd.fromInt ((hd.scalar s + hd.scalar t) % curveN) = .ok u ∧
      p = hd.point (hd.publicKey u)

/-! ## Reading extended keys -/

section Payload

variable {payload : Bytes}

/-- What every extended key is checked for. -/
theorem checkXkey_ok {α : Type}
    {rest : payload.length = 78 → Except PyErr α} {a : α} :
    checkXkey payload rest = .ok a ↔ ∃ hlen : payload.length = 78,
      ¬ (networkOfXprv (xkeyPrefix payload) = none ∧
        networkOfXpub (xkeyPrefix payload) = none) ∧
        rest hlen = .ok a := by
  unfold checkXkey
  by_cases hlen : payload.length = 78
  · rw [dif_pos hlen, refuseIf_bind_ok]
    exact ⟨fun h => ⟨hlen, h⟩, fun ⟨_, h⟩ => h⟩
  · rw [dif_neg hlen]
    exact ⟨nofun, fun ⟨h, _⟩ => absurd h hlen⟩

/-- What a public one is checked for. -/
theorem Xpub.ofPayload_ok {x : Xpub Key} : Xpub.ofPayload hd payload = .ok x ↔
    x.payload = payload ∧ (payload.getD 45 0 = 0x02 ∨
      payload.getD 45 0 = 0x03) ∧
      hd.parse (xkeyKeyBytes payload) = .ok x.key := by
  unfold Xpub.ofPayload
  rw [checkXkey_ok]
  constructor
  · rintro ⟨hlen, -, h⟩
    split at h
    · cases h
    · obtain ⟨hbyte, h⟩ := refuseIf_bind_ok.mp h
      obtain ⟨key, hkey, h⟩ := bind_ok.mp h
      cases h
      exact ⟨rfl, not_not.mp hbyte, hkey⟩
  · rintro ⟨rfl, hbyte, hkey⟩
    refine ⟨x.sized, fun hnone => ?_, ?_⟩
    · have := hnone.2
      rw [x.ofNetwork] at this
      cases this
    · have hnet := x.ofNetwork
      split
      · rename_i hnone
        rw [hnet] at hnone
        cases hnone
      · rename_i network hsome
        refine refuseIf_bind_ok.mpr ⟨not_not.mpr hbyte,
          bind_ok.mpr ⟨x.key, hkey, ?_⟩⟩
        rw [hnet, Option.some.injEq] at hsome
        subst hsome
        rfl

/-- What a private one is checked for. -/
theorem Xprv.ofPayload_ok {x : Xprv Secret} :
    Xprv.ofPayload hd payload = .ok x ↔
    x.payload = payload ∧ payload.getD 45 0 = 0 ∧
    hd.parseSecret ((xkeyKeyBytes payload).drop 1) = .ok x.key := by
  unfold Xprv.ofPayload
  rw [checkXkey_ok]
  constructor
  · rintro ⟨hlen, -, h⟩
    split at h
    · cases h
    · obtain ⟨hbyte, h⟩ := refuseIf_bind_ok.mp h
      obtain ⟨key, hkey, h⟩ := bind_ok.mp h
      cases h
      exact ⟨rfl, not_not.mp hbyte, hkey⟩
  · rintro ⟨rfl, hbyte, hkey⟩
    refine ⟨x.sized, fun hnone => ?_, ?_⟩
    · have := hnone.1
      rw [x.ofNetwork] at this
      cases this
    · have hnet := x.ofNetwork
      split
      · rename_i hnone
        rw [hnet] at hnone
        cases hnone
      · rename_i network hsome
        refine refuseIf_bind_ok.mpr ⟨not_not.mpr hbyte,
          bind_ok.mpr ⟨x.key, hkey, ?_⟩⟩
        rw [hnet, Option.some.injEq] at hsome
        subst hsome
        rfl

end Payload

/-- The fields of a payload that is put together from them. -/
structure XkeyOf (payload head depth fingerprint index chain key : Bytes) :
    Prop where
  payload : payload = head ++ depth ++ fingerprint ++ index ++ chain ++ key
  head : head.length = 4
  depth : depth.length = 1
  fingerprint : fingerprint.length = 4
  index : index.length = 4
  chain : chain.length = 32
  key : key.length = 33

section Fields

variable {payload head depth fingerprint index chain key : Bytes}

/-- A spelled payload is 78 bytes. -/
theorem XkeyOf.sized
    (h : XkeyOf payload head depth fingerprint index chain key) :
    payload.length = 78 := by
  rw [h.payload]
  simp only [List.length_append, h.head, h.depth, h.fingerprint, h.index,
    h.chain, h.key]

theorem XkeyOf.prefix_eq
    (h : XkeyOf payload head depth fingerprint index chain key) :
    xkeyPrefix payload = head := by
  rw [xkeyPrefix, h.payload]
  simp only [List.append_assoc]
  exact List.take_left' h.head

theorem XkeyOf.depth_eq
    (h : XkeyOf payload head depth fingerprint index chain key) :
    xkeyDepth payload = depth.headD 0 := by
  obtain ⟨d, hd⟩ := List.length_eq_one_iff.mp h.depth
  rw [xkeyDepth, h.payload, hd]
  simp only [List.append_assoc, List.getD_eq_getElem?_getD]
  rw [List.getElem?_append_right (Nat.le_of_eq h.head), h.head]
  rfl

theorem XkeyOf.chain_eq
    (h : XkeyOf payload head depth fingerprint index chain key) :
    xkeyChainCode payload = chain := by
  have hdrop : payload.drop 13 = chain ++ key := by
    rw [h.payload, List.append_assoc (head ++ depth ++ fingerprint ++ index)]
    exact List.drop_left' (by simp only [List.length_append, h.head, h.depth,
      h.fingerprint, h.index])
  rw [xkeyChainCode, hdrop]
  exact List.take_left' h.chain

theorem XkeyOf.key_eq
    (h : XkeyOf payload head depth fingerprint index chain key) :
    xkeyKeyBytes payload = key := by
  rw [xkeyKeyBytes, h.payload]
  exact List.drop_left' (by simp only [List.length_append, h.head, h.depth,
    h.fingerprint, h.index, h.chain])

theorem XkeyOf.byte_eq
    (h : XkeyOf payload head depth fingerprint index chain key) :
    payload.getD 45 0 = key.headD 0 := by
  have hdrop : payload.drop 45 = key := h.key_eq
  rw [List.getD_eq_getElem?_getD, ← List.head?_drop, hdrop]
  cases key <;> rfl

theorem XkeyOf.fingerprint_eq
    (h : XkeyOf payload head depth fingerprint index chain key) :
    xkeyFingerprint payload = fingerprint := by
  have hdrop : payload.drop 5 = fingerprint ++ (index ++ chain ++ key) := by
    rw [h.payload]
    simp only [List.append_assoc]
    rw [← List.append_assoc head]
    exact List.drop_left' (by rw [List.length_append, h.head, h.depth])
  rw [xkeyFingerprint, hdrop]
  exact List.take_left' h.fingerprint

theorem XkeyOf.index_eq
    (h : XkeyOf payload head depth fingerprint index chain key) :
    xkeyIndex payload = index := by
  have hdrop : payload.drop 9 = index ++ (chain ++ key) := by
    rw [h.payload]
    simp only [List.append_assoc]
    rw [← List.append_assoc head, ← List.append_assoc (head ++ depth)]
    exact List.drop_left' (by simp only [List.length_append, h.head, h.depth,
      h.fingerprint])
  rw [xkeyIndex, hdrop]
  exact List.take_left' h.index

end Fields

/-! ## The derivation of a child -/

/-- A packed number has its width. -/
theorem toBytesBe_ok {k : Nat} {n : Int} {b : Bytes}
    (h : toBytesBe k n = .ok b) : b.length = k := by
  obtain ⟨c, hc, h⟩ := bind_ok.mp h
  cases h
  rw [List.length_reverse]
  unfold toBytesLe at hc
  split at hc
  · cases hc
  · split at hc
    · cases hc
      exact length_leBytes _ _
    · cases hc

section Lawful

variable (law : hd.Lawful)

include law

/-- The point of the sum of a secret and an offset is the sum of the points. -/
theorem HdCurve.Lawful.child_point {s : Secret} {offset : Nat}
    {product sum : Option Point} {child : Key}
    (hproduct : curveMultiply hd offset (some curveG) = .ok product)
    (hsum : curveAdd hd (some (hd.point (hd.publicKey s))) product = .ok sum)
    (hchild : publicKeyOfPoint hd sum = .ok child) :
    ∃ u, hd.fromInt ((hd.scalar s + offset) % curveN) = .ok u ∧
    child = hd.publicKey u := by
  obtain ⟨-, hproduct⟩ := refuseIf_bind_ok.mp hproduct
  dsimp only at hproduct
  -- an offset of zero adds nothing; the code's product is then the point at
  -- infinity
  by_cases h0 : offset % curveN = 0
  · rw [if_pos h0] at hproduct
    cases hproduct
    obtain ⟨-, hsum⟩ := refuseIf_bind_ok.mp hsum
    obtain ⟨-, hsum⟩ := refuseIf_bind_ok.mp hsum
    cases hsum
    have hsame : (hd.scalar s + offset) % curveN = hd.scalar s := by
      rw [Nat.add_mod, h0, Nat.add_zero, Nat.mod_mod,
        Nat.mod_eq_of_lt (law.scalar_lt s)]
    have hback := law.fromPoint_point (hd.publicKey s)
    rw [show hd.fromPoint (hd.point (hd.publicKey s)) = .ok child from hchild,
      Except.ok.injEq] at hback
    exact ⟨s, by rw [hsame, law.fromInt_scalar], hback⟩
  · rw [if_neg h0] at hproduct
    obtain ⟨r, hr, hproduct⟩ := bind_ok.mp hproduct
    obtain ⟨-, hproduct⟩ := refuseIf_bind_ok.mp hproduct
    cases hproduct
    obtain ⟨t, ht, rfl⟩ := law.multiply_base _ _ hr
    obtain ⟨-, hsum⟩ := refuseIf_bind_ok.mp hsum
    obtain ⟨-, hsum⟩ := refuseIf_bind_ok.mp hsum
    dsimp only at hsum
    obtain ⟨negative, -, hsum⟩ := bind_ok.mp hsum
    by_cases hinf : some (hd.point (hd.publicKey s)) = negative
    · rw [if_pos hinf] at hsum
      cases hsum
      cases hchild
    · rw [if_neg hinf] at hsum
      obtain ⟨r, hr, hsum⟩ := bind_ok.mp hsum
      obtain ⟨-, hsum⟩ := refuseIf_bind_ok.mp hsum
      cases hsum
      obtain ⟨u, hu, rfl⟩ := law.combine_points s t r hr
      have hback := law.fromPoint_point (hd.publicKey u)
      rw [show hd.fromPoint (hd.point (hd.publicKey u)) = .ok child from hchild,
        Except.ok.injEq] at hback
      refine ⟨u, ?_, hback⟩
      rw [← hu, ht, Nat.add_mod_mod]

/-- What the `Xpub` of an `Xprv` is. -/
theorem HdCurve.Lawful.xpub_ok {x : Xprv Secret} {X : Xpub Key}
    (h : x.xpub hd = .ok X) :
    XkeyOf X.payload (xpubPrefix x.network) [xkeyDepth x.payload]
      (xkeyFingerprint x.payload) (xkeyIndex x.payload)
      (xkeyChainCode x.payload) (hd.format (hd.publicKey x.key) true) ∧
      X.key = hd.publicKey x.key ∧ X.network = x.network := by
  obtain ⟨hpayload, -, hkey⟩ := Xpub.ofPayload_ok.mp h
  have hlen := x.sized
  have hof : XkeyOf X.payload (xpubPrefix x.network) [xkeyDepth x.payload]
    (xkeyFingerprint x.payload)
      (xkeyIndex x.payload) (xkeyChainCode x.payload)
        (hd.format (hd.publicKey x.key) true) := {
    payload := hpayload
    head := by cases x.network <;> rfl
    depth := rfl
    fingerprint := by rw [xkeyFingerprint, List.length_take,
      List.length_drop]; omega
    index := by rw [xkeyIndex, List.length_take, List.length_drop]; omega
    chain := by rw [xkeyChainCode, List.length_take, List.length_drop]; omega
    key := law.format_length _ }
  refine ⟨hof, ?_, ?_⟩
  · rw [← hpayload, hof.key_eq, law.parse_format, Except.ok.injEq] at hkey
    exact hkey.symm
  · have hnet := X.ofNetwork
    rw [hof.prefix_eq] at hnet
    cases hx : x.network <;> rw [hx] at hnet <;>
      exact (Option.some.inj hnet).symm

/-- **The child of an account's `Xpub` is the `Xpub` of the child of its
`Xprv`.** -/
theorem Xprv.ckd_of_xpub {x : Xprv Secret} {X Y : Xpub Key} {i : Int}
    (hx : x.xpub hd = .ok X)
    (h : X.ckd hd i = .ok Y) : ∃ y, x.ckd hd i = .ok y ∧ y.xpub hd = .ok Y := by
  obtain ⟨hof, hkey, -⟩ := law.xpub_ok hx
  unfold Xpub.ckd at h
  obtain ⟨index, hindex, h⟩ := bind_ok.mp h
  obtain ⟨hsoft, h⟩ := refuseIf_bind_ok.mp h
  obtain ⟨head, hhead, h⟩ := bind_ok.mp h
  obtain ⟨product, hproduct, h⟩ := bind_ok.mp h
  obtain ⟨sum, hsum, h⟩ := bind_ok.mp h
  obtain ⟨child, hchild, h⟩ := bind_ok.mp h
  rw [hkey] at hhead hproduct hsum h
  rw [hof.chain_eq] at hproduct h
  obtain ⟨u, hu, rfl⟩ := law.child_point hproduct hsum hchild
  obtain ⟨depth, hdepth, hhead⟩ := bind_ok.mp hhead
  rw [hof.depth_eq] at hdepth
  cases hhead
  rw [hof.prefix_eq] at h
  generalize hdigest : hd.hmacSha512 (xkeyChainCode x.payload)
    (hd.format (hd.publicKey x.key) true ++ index) = digest at h hu
  -- both sides hash the same public key, chain code and index
  have hlen : digest.length = 64 := by rw [← hdigest, law.hmac_length]
  have hdepthLen := toBytesBe_ok hdepth
  have hfinger : ((hd.hash160 (hd.format (hd.publicKey x.key) true)).take
      4).length = 4 := by
    rw [List.length_take, Swap.Curve.hash160, law.ripemd_length]
    rfl
  have hchild' : XkeyOf (xkeyPrefix x.payload ++ depth ++
    (hd.hash160 (hd.format (hd.publicKey x.key) true)).take 4 ++ index ++
    digest.drop 32 ++ 0x00 :: hd.secretBytes u) (xkeyPrefix x.payload) depth
      ((hd.hash160 (hd.format (hd.publicKey x.key) true)).take 4) index
        (digest.drop 32)
      (0x00 :: hd.secretBytes u) := {
    payload := rfl
    head := by rw [xkeyPrefix, List.length_take, x.sized]; rfl
    depth := hdepthLen
    fingerprint := hfinger
    index := toBytesBe_ok hindex
    chain := by rw [List.length_drop, hlen]
    key := by rw [List.length_cons, law.secret_length] }
  let y : Xprv Secret :=
    ⟨_, x.network, u, hchild'.sized, by rw [hchild'.prefix_eq, x.ofNetwork]⟩
  have hy : Xprv.ofPayload hd y.payload = .ok y :=
    Xprv.ofPayload_ok.mpr ⟨rfl, hchild'.byte_eq, by
      show hd.parseSecret ((xkeyKeyBytes y.payload).drop 1) = _
      rw [hchild'.key_eq]
      exact law.parse_secret u⟩
  refine ⟨y, ?_, ?_⟩
  · unfold Xprv.ckd
    refine bind_ok.mpr ⟨index, hindex, ?_⟩
    dsimp only
    refine bind_ok.mpr ⟨_, bind_ok.mpr ⟨depth, hdepth, rfl⟩, ?_⟩
    have hlt : index.headD 0 < 0x80 := UInt8.not_le.mp hsoft
    rw [if_pos hlt, hdigest]
    exact bind_ok.mpr ⟨u, hu, hy⟩
  · obtain ⟨d, rfl⟩ := List.length_eq_one_iff.mp hdepthLen
    show Xpub.ofPayload hd (xpubPrefix x.network ++ [xkeyDepth y.payload] ++
      xkeyFingerprint y.payload ++
      xkeyIndex y.payload ++ xkeyChainCode y.payload ++
        hd.format (hd.publicKey u) true) = .ok Y
    rw [hchild'.depth_eq, hchild'.fingerprint_eq, hchild'.index_eq,
      hchild'.chain_eq]
    exact h

/-- The address of an `Xpub` is that of its `Xprv`. -/
theorem HdCurve.Lawful.address_eq {x : Xprv Secret} {X : Xpub Key}
    (h : x.xpub hd = .ok X) :
    x.address hd = X.address hd := by
  obtain ⟨-, hkey, hnet⟩ := law.xpub_ok h
  rw [Xprv.address, Xpub.address, hkey, hnet]

/-- **The wallet derives the addresses its account's `Xpub` shows.** -/
theorem HdWallet.child_of_xpub {w : HdWallet Secret}
    {acct : Xpub Key} {change index : Int}
    {chain child : Xpub Key} (hacct : w.accountXpub hd = .ok acct)
    (hchain : acct.ckd hd change = .ok chain)
    (hchild : chain.ckd hd index = .ok child) :
    ∃ y, w.child hd change index = .ok y ∧ y.xpub hd = .ok child := by
  obtain ⟨x, hx, hxpub⟩ := bind_ok.mp hacct
  obtain ⟨c, hc, hcpub⟩ := Xprv.ckd_of_xpub law hxpub hchain
  obtain ⟨y, hy, hypub⟩ := Xprv.ckd_of_xpub law hcpub hchild
  exact ⟨y, bind_ok.mpr ⟨x, hx, bind_ok.mpr ⟨c, hc, hy⟩⟩, hypub⟩

end Lawful

/-! ## A wallet -/

/-- The keys of a wallet from its master key down to its account, those that it
uses for its first address, its first change and the change at 100001, and the
offsets on the way to the latter two. -/
inductive SampleKey where
  | master
  | purpose
  | coin
  | account
  | external
  | receive
  | internal
  | change
  | late
  | internalOffset
  | changeOffset
  | lateOffset
deriving DecidableEq

namespace SampleKey

def all : List SampleKey :=
  [master, purpose, coin, account, external, receive, internal, change, late,
    internalOffset, changeOffset, lateOffset]

def scalar : SampleKey → Nat
  | .master =>
    0xD39334C77F6F46233B80B4D06E982A3DE4635DE11923AF076EBF8AA42FC2EF4F
  | .purpose =>
    0x5718345AD15A0396B101BCB5A1DAF0839B2B66DA7D47EBB00FEBF7F00A8A869B
  | .coin => 0x86453C183BFAB4ACEE85156E41F818EF652E87392F09EC5DFA33BF268C11B741
  | .account =>
    0x26CD4A2DAB5C483E93E2D66EDCC78288D292B9EC9C46E65581259F69D4A8ED7D
  | .external =>
    0x2BC066DA81DED47FCE89FD7B165D6D617EBBBD97CD9011DC4D92D5F8CFC611F2
  | .receive =>
    0x8DE2863487E29799B19EDCC4E13C3EE0A1CBE5D0BB65FF834F326AA14807005B
  | .internal =>
    0xEBA040303008C42CB710D479B8B3B40764234ED0F077635C149AE7C9046D8D97
  | .change =>
    0xE6FDDCC509B87BB2214E450B417538F51F9770650D8A34163B9BBCB190C1D46E
  | .late => 0xE63B45D4AD9D85334869488C3DA92D17128ECE3643A1CF5EE167B0A482E4445F
  | .internalOffset =>
    0xC4D2F60284AC7BEE232DFE0ADBEC317E919094E454307D069375485F2FC4A01A
  | .changeOffset =>
    0xFB5D9C94D9AFB7856A3D709188C184EC7622FE7ACC5B70F5E6D333755C8A8818
  | .lateOffset =>
    0xFA9B05A47D94C1069158741284F5790E691A5C4C02730C3E8C9F27684EACF809

def point : SampleKey → Point
  | .master =>
    (0xB8D1BB0F59A7DD44D4A148607418B327234C6870DB2E5D85E7349591AAA427C6,
     0xB58C02A527FF23CACE1654A5EE90476D3E9395DEBB5414F3A8E67B1FE4EC1F26)
  | .purpose =>
    (0x32B9336211B1F9589DAF2A1ED75A259223F4ADFBD0BE7F7FE608090754CBFF2E,
     0x7C651FFB0BFA96686BCE216CE3E8E38587EAD7D40B40DEFA35F6557AC2CB9B1)
  | .coin =>
    (0x76B95BE0FFB84571E9C0711F8EDAFD9C696A5425FAC4ED0901FBB77BB3A6D52D,
     0xC4FE4FF9BF5C79F879B1560C93615C83242632F99702A6F9D73B31A803BD9DD)
  | .account =>
    (0xB957A7E6C9F8318A45C1093ABE6639EADD38895D92C36393EEFFB5BE2BC0F434,
     0x9783707B485EF9102AFE4B6E14B5123E130ECE0CEEC080B5DC4A2895FC777BAC)
  | .external =>
    (0xCEF7D0F605A870430E020EAD0CAA5D9DB0045583B08F41F462C93280AA4C48F3,
     0xF7FA82EAD242E62CC78A48E1403C62C04AE8CA6F3D955A7FA1EBA7D063050997)
  | .receive =>
    (0x35ED0C137E2DB46F11B5A17840F805B694E87F318D196FB0FF3440E9F68558A3,
     0xD58E55EE5D79F607AA951563FA0AFA38D56AB7CE68A094F808A8B277A1A437ED)
  | .internal =>
    (0x4C3672DAF2C134054EE8B3709F39B9AAB33D231CCF467E78D21EEC3680208D87,
     0xE148D4CEA1BFAC4661BE968F06D675CA399272359CDB5066ABF2F5DCE2F031BF)
  | .change =>
    (0x8EB0F2C866B2353620C1DF3580EB7BFCF6AD84CBA45976A678BBD669F429EC2B,
     0xEAF05A94EA5360E7897C2853C6A41CDA16729076F9C3DF8F4A71531A1489E3FA)
  | .late =>
    (0xA25BABC3326C7D8E4F973BE347E627C1E563B911F85787FE5C187BCB98596386,
     0xB435D6A62FFB1C4DDF88F623DE8D4451DB3662168A5C9FA29C03D31A80737647)
  | .internalOffset =>
    (0x721465F00190B74EE07FB06610D9D1723B7BB5DD04AAECCD817397F2C584F1B2,
     0x33BC4DC866399B2A5C900B4D936400E27562836ACB915464492C9E6D13060793)
  | .changeOffset =>
    (0xE38221EA86DFDAA1A0D28028361D34A99B1564CC90AE466B0DDE2E6D32831A77,
     0xF553BB4199522C8C85FC6C68F8B1F0AD303B531068B22D396B4429B14CC350DE)
  | .lateOffset =>
    (0x6AE03441A4C2EB79C3C671B58771B1101E68D4B5E020C64E276D1DAC7586AF96,
     0xC612A8A02C8E0946F6744BA18426616F6481A3C3D2243C65A07E752B20E44C50)

/-- The compressed form of the point. -/
def format (k : SampleKey) : Bytes :=
  (if k.point.2 % 2 = 0 then 0x02 else 0x03) :: (leBytes 32 k.point.1).reverse

def secretBytes (k : SampleKey) : Bytes := (leBytes 32 k.scalar).reverse

/-- The key with this property. -/
def find {α : Type} [DecidableEq α] (f : SampleKey → α) (a : α) :
    Except PyErr SampleKey :=
  match all.find? fun k => decide (f k = a) with
  | some k => .ok k
  | none => raises "not one of the keys"

/-- A sample key that is found has the value looked for. -/
theorem find_ok {α : Type} [DecidableEq α] {f : SampleKey → α} {a : α}
    {k : SampleKey} (h : find f a = .ok k) :
    f k = a := by
  unfold find at h
  split at h
  · rename_i hfind
    cases h
    have hpred := List.find?_some hfind
    exact of_decide_eq_true hpred
  · cases h

/-- The hashes of the public keys, by their SHA-256 digest. -/
def hashes : List (Nat × Nat) :=
  [(0x726ABEC87734E132C5B44969CEEBAD6C05188FA83CF3878694ED5BECC5A02DDD,
     0xDC2CA4B241741220FCB7DF378CA3706E4847D529),
    (0xC77468E5F28E092BDA88AAF854428894312A78144DFE7EA479E3110C773F807F,
     0xE6D2A5EBBA6D0BFF2EFBBF09527F2D37F9883896),
    (0x4BC591974A2AA28EBB7CF406E8789ED2EB2C3582BDFACED09F9CB6AD8452A28B,
     0x5341B0D0EF272AE1B38ECE20FB0982BFDE0ABE56),
    (0x776167CA5280EBB9D250229316A93672E6A0ACCA023BA76F1510DB91FDE1497,
     0x52BFD0CDBE9AE3E5AC2B6A904C34EF397F489EC6),
    (0x7E9EAC110F62E26615F55CD9123FF3A39B8E5B4C8B1F40E2CE72EBA71E227D44,
     0x7E5AB2522DF8CD6494B2D799BF5CDB97D69DD1B3),
    (0xECD5100E1608558B510B142AF130E55B6C9FD30601015B12EB920C35EBA7A46,
     0x28F02FA274C2CCAE683529F0E48733333F6273C2),
    (0xFA1D49931CCFBB0543B9793D90C30A999617CEE0418CC624F76E1A2F5E7EA1CA,
     0x330A02BF69AEFF64CCF5124CEB8810E6661751E8),
    (0x7496AC496FA6067484D0F23414DFB3E094EEA1C846C7F3F886458E598BAFD7D1,
     0xCC687EF443FBF56E89C99C0FE9BE1DE00AED72F6),
    (0x5590B399BD4AF4C77596EDFAD8AF7EB95F91E1C8DB73713A2B6BB00C3CE01D17,
     0xA163F3E99319CD66142D4B2B3FF2E2E3FA577254)]

/-- The halves of the HMAC, by its message. -/
def macs : List (Nat × Nat × Nat) :=
  [(0xD39334C77F6F46233B80B4D06E982A3DE4635DE11923AF076EBF8AA42FC2EF4F8000002C,
     0x8384FF9351EABD73758107E53342C6447176E5E0136CDCE460FECBD8AAFDD88D,
     0xD5F7170115A6F8ED26BEF267CAB74FC45C1A8387E7A796AD6E2D12BF80CD21E9),
    (0x5718345AD15A0396B101BCB5A1DAF0839B2B66DA7D47EBB00FEBF7F00A8A869B80000200,
     0x2F2D07BD6AA0B1163D8358B8A01D286BCA03205EB1C200ADEA47C736818730A6,
     0xC6937C14B81AF8796D6FC882A26421141BF5611B1C217357A78ECD1C698BAF48),
    (0x86453C183BFAB4ACEE85156E41F818EF652E87392F09EC5DFA33BF268C11B74180000000,
     0xA0880E156F619391A55DC1009ACF699828130F9A1C859A3346C43ED018CD777D,
     0xED7F443DD6C1CA4233D2109199F1DE4C0F254AA5D626D5A69C19011428CC04EA),
    (0x2B957A7E6C9F8318A45C1093ABE6639EADD38895D92C36393EEFFB5BE2BC0F43400000000,
     0x4F31CACD6828C413AA7270C3995EAD8AC2903AB31492B86CC6D368EFB1D2475,
     0xF0AE932FBD710A6849816DF3EE113BAA4FF2F0E8DE93F428E5B22EEF9DF772A7),
    (0x3CEF7D0F605A870430E020EAD0CAA5D9DB0045583B08F41F462C93280AA4C48F300000000,
     0x62221F5A0603C319E314DF49CADED17F23102838EDD5EDA7019F94A87840EE69,
     0xA8FC0D49734AA4C164F237A800976D7B215FF137C5C6E10151ACA3B9C4A050B6),
    (0x2B957A7E6C9F8318A45C1093ABE6639EADD38895D92C36393EEFFB5BE2BC0F43400000001,
     0xC4D2F60284AC7BEE232DFE0ADBEC317E919094E454307D069375485F2FC4A01A,
     0xE0792274E3072DE13C95F8E8F08C39DDFA70714D584183FB2F7BD85B12552347),
    (0x34C3672DAF2C134054EE8B3709F39B9AAB33D231CCF467E78D21EEC3680208D8700000000,
     0xFB5D9C94D9AFB7856A3D709188C184EC7622FE7ACC5B70F5E6D333755C8A8818,
     0x9554C8A1343B6FBCFC0D71DD45D330F7EA84755BA91734340EAA87700CBF73A3),
    (0x34C3672DAF2C134054EE8B3709F39B9AAB33D231CCF467E78D21EEC3680208D87000186A1,
     0xFA9B05A47D94C1069158741284F5790E691A5C4C02730C3E8C9F27684EACF809,
     0x7506E8D9D6DC9093A7B4E01D93C2ECF4DA173C92C59B53BE802C31D7D98831DC)]

end SampleKey

/-- What the libraries give on these keys. -/
def sampleHd (signature : Bytes → Bytes) : HdCurve SampleKey SampleKey where
  ripemd160 b :=
    (leBytes 20 ((SampleKey.hashes.lookup (beNat b)).getD 0)).reverse
  parse b := SampleKey.find SampleKey.format b
  format k _ := k.format
  verify _ _ _ := .ok true
  sign _ digest := signature digest
  publicKey s := s
  hmacSha512 _ message :=
    let (left, right) := (SampleKey.macs.lookup (beNat message)).getD (0, 0)
    (leBytes 32 left).reverse ++ (leBytes 32 right).reverse
  parseSecret b := SampleKey.find SampleKey.secretBytes b
  fromInt k := SampleKey.find SampleKey.scalar k
  secretBytes := SampleKey.secretBytes
  point := SampleKey.point
  fromPoint p := SampleKey.find SampleKey.point p
  combine p q := do
    let s ← SampleKey.find SampleKey.point p
    let t ← SampleKey.find SampleKey.point q
    let u ← SampleKey.find SampleKey.scalar ((s.scalar + t.scalar) % curveN)
    return u.point
  multiply _ k := do
    let t ← SampleKey.find SampleKey.scalar k
    return t.point

/-- A sample key is found by its point. -/
theorem find_point (k : SampleKey) :
    SampleKey.find SampleKey.point k.point = .ok k := by
  cases k <;> decide

theorem scalar_sampleHd (signature : Bytes → Bytes) (k : SampleKey) :
    (sampleHd signature).scalar k = k.scalar := by
  show beNat k.secretBytes = k.scalar
  rw [beNat, SampleKey.secretBytes, List.reverse_reverse]
  exact leNat_leBytes (by cases k <;> decide)

theorem sampleHd_lawful (signature : Bytes → Bytes) :
    (sampleHd signature).Lawful where
  ripemd_length b := by
    show ((leBytes 20 _).reverse).length = 20
    rw [List.length_reverse, length_leBytes]
  hmac_length k m := by
    show ((leBytes 32 _).reverse ++ (leBytes 32 _).reverse).length = 64
    rw [List.length_append, List.length_reverse, List.length_reverse,
      length_leBytes, length_leBytes]
  format_length k := by
    show (SampleKey.format k).length = 33
    rw [SampleKey.format, List.length_cons, List.length_reverse, length_leBytes]
  parse_format k := by
    show SampleKey.find SampleKey.format k.format = .ok k
    cases k <;> decide
  secret_length s := by
    show (SampleKey.secretBytes s).length = 32
    rw [SampleKey.secretBytes, List.length_reverse, length_leBytes]
  parse_secret s := by
    show SampleKey.find SampleKey.secretBytes s.secretBytes = .ok s
    cases s <;> decide
  scalar_lt s := by
    rw [scalar_sampleHd]
    cases s <;> decide
  fromInt_scalar s := by
    rw [scalar_sampleHd]
    show SampleKey.find SampleKey.scalar s.scalar = .ok s
    cases s <;> decide
  fromPoint_point k := find_point k
  multiply_base k p h := by
    obtain ⟨t, ht, h⟩ := bind_ok.mp h
    cases h
    exact ⟨t, by rw [scalar_sampleHd, SampleKey.find_ok ht], rfl⟩
  combine_points s t p h := by
    obtain ⟨s', hs, h⟩ := bind_ok.mp h
    obtain ⟨t', ht, h⟩ := bind_ok.mp h
    obtain ⟨u, hu, h⟩ := bind_ok.mp h
    cases h
    rw [show SampleKey.find SampleKey.point ((sampleHd signature).point
      ((sampleHd signature).publicKey s)) = .ok s from find_point s,
      Except.ok.injEq] at hs
    rw [show SampleKey.find SampleKey.point ((sampleHd signature).point
      ((sampleHd signature).publicKey t)) = .ok t from find_point t,
      Except.ok.injEq] at ht
    rw [← hs, ← ht] at hu
    refine ⟨u, ?_, rfl⟩
    rw [scalar_sampleHd, scalar_sampleHd]
    exact hu

/-- The master key of a wallet on the seed `00 01 .. 3f`. -/
def sampleMaster : Bytes :=
  [0x04, 0x88, 0xAD, 0xE4, 0x00, 0x00, 0x00, 0x00, 0x00, 0x00, 0x00, 0x00, 0x00,
    0xD5, 0x50, 0xC1,
   0x0B, 0xDF, 0x68, 0x67, 0xAD, 0x4E, 0xAC, 0x65, 0xF6, 0x0F, 0x8F, 0x7A, 0x3D,
     0x4E, 0xF3, 0x7E,
   0x77, 0xA9, 0x50, 0x2E, 0x10, 0xE5, 0x94, 0xCC, 0x3E, 0x6B, 0x66, 0xAE, 0xD0,
     0x00, 0xD3, 0x93,
   0x34, 0xC7, 0x7F, 0x6F, 0x46, 0x23, 0x3B, 0x80, 0xB4, 0xD0, 0x6E, 0x98, 0x2A,
     0x3D, 0xE4, 0x63,
   0x5D, 0xE1, 0x19, 0x23, 0xAF, 0x07, 0x6E, 0xBF, 0x8A, 0xA4, 0x2F,
     0xC2, 0xEF, 0x4F]

def masterXprv : Xprv SampleKey := ⟨sampleMaster, .mainnet, .master, rfl, rfl⟩

/-- Its account key, at `m/44'/512'/0'`. -/
def sampleAccount : Bytes :=
  [0x04, 0x88, 0xAD, 0xE4, 0x03, 0x53, 0x41, 0xB0, 0xD0, 0x80, 0x00, 0x00, 0x00,
    0xED, 0x7F, 0x44,
   0x3D, 0xD6, 0xC1, 0xCA, 0x42, 0x33, 0xD2, 0x10, 0x91, 0x99, 0xF1, 0xDE, 0x4C,
     0x0F, 0x25, 0x4A,
   0xA5, 0xD6, 0x26, 0xD5, 0xA6, 0x9C, 0x19, 0x01, 0x14, 0x28, 0xCC, 0x04, 0xEA,
     0x00, 0x26, 0xCD,
   0x4A, 0x2D, 0xAB, 0x5C, 0x48, 0x3E, 0x93, 0xE2, 0xD6, 0x6E, 0xDC, 0xC7, 0x82,
     0x88, 0xD2, 0x92,
   0xB9, 0xEC, 0x9C, 0x46, 0xE6, 0x55, 0x81, 0x25, 0x9F, 0x69, 0xD4,
     0xA8, 0xED, 0x7D]

def sampleXprv : Xprv SampleKey := ⟨sampleAccount, .mainnet, .account, rfl, rfl⟩

def sampleWallet : HdWallet SampleKey := ⟨.ok sampleXprv⟩

example : ((sampleWallet.privkeyFor (sampleHd id) 1 0).map fun k => k.secret) =
    .ok .change := by decide

end Pyrxd.Hd
