/-
# The client accepts every completed rotation

Each root document is signed by the key before it and by its own, so the client follows the
documents to the last one, and below it accepts what it accepted below the first.
-/

import Useful.Cli.RootDocument
import Useful.Tuf.LaterRoot

namespace Useful.Cli.Source

open Useful.Math

variable {crypto : Crypto} {tuf : Tuf.External}

/-- What the rotations of a source have made: the root key and the expiry of each version. -/
structure History where
  pems : Nat → String
  expires : Nat → String
  team : Team

/-- The first document is signed by its own key, a later one also by the key before. -/
def History.signers (h : History) (n : Nat) : List String :=
  if n = 1 then [h.pems 1] else [h.pems (n - 1), h.pems n]

theorem History.mem_signers (h : History) (n : Nat) : h.pems n ∈ h.signers n := by
  unfold signers
  split_ifs with hn
  · simp [hn]
  · simp

variable (crypto) in
def History.document (h : History) (n : Nat) : Signed RootSigned :=
  signedRoot crypto n (h.expires n) (keyOf crypto (h.pems n)) h.team (h.signers n)

/-- The root documents of a source are those of the history, up to a version. -/
structure Rooted (crypto : Crypto) (h : History) (files : Files) (version : Nat) : Prop where
  positive : 1 ≤ version
  safe : version ≤ 2 ^ 53
  documents : ∀ n, 1 ≤ n → n ≤ version → files (.rootDoc n) = some (.root (h.document crypto n))
  absent : ∀ n, n = 0 ∨ version < n → files (.rootDoc n) = none
  drawn : ∀ n, 1 ≤ n → n ≤ version → Drawn crypto (keyOf crypto (h.pems n)) h.team

/-- The source hands out the root documents that are on disk, and `serde_json` reads them. -/
structure Serves (tuf : Tuf.External) (src : Tuf.MetadataSource) (files : Files) : Prop where
  found : ∀ n doc, files (.rootDoc n) = some (.root doc) → ∃ bytes read,
    src (Tuf.rootName n) = some bytes ∧ bytes.length ≤ Tuf.maxMetadataSize ∧
      tuf.fromSlice bytes = .ok read ∧ Reads read doc
  absent : ∀ n, files (.rootDoc n) = none → src (Tuf.rootName n) = none

section

variable {h : History} {files : Files} {src : Tuf.MetadataSource} {N : Nat}

/-- A document of the history as the client accepts it. -/
structure Held (crypto : Crypto) (tuf : Tuf.External) (src : Tuf.MetadataSource) (h : History)
    (n : Nat) (r : Tuf.Root) : Prop where
  found : src (Tuf.rootName n) = some r.bytes
  accepted : r.Accepted tuf
  version : r.version = n
  keys : r.keys = heldKeys (h.document crypto n).signed
  role : r.role = ⟨[(keyOf crypto (h.pems n)).keyid], 1⟩
  reads : Reads r.doc (h.document crypto n)

theorem exists_held (hlawful : crypto.Lawful tuf) (hrooted : Rooted crypto h files N)
    (hserves : Serves tuf src files) {n : Nat} (hpositive : 1 ≤ n) (hle : n ≤ N) :
    ∃ r, Held crypto tuf src h n r := by
  obtain ⟨bytes, read, hfound, hsize, hparsed, hreads⟩ :=
    hserves.found n _ (hrooted.documents n hpositive hle)
  have hsafe : n ≤ 2 ^ 53 := hle.trans hrooted.safe
  exact ⟨clientRoot bytes read (h.document crypto n).signed,
    { found := hfound
      accepted := accepted hlawful (hrooted.drawn n hpositive hle) hsafe (by omega)
        (h.mem_signers n) hreads hsize hparsed
      version := rfl
      keys := rfl
      role := rfl
      reads := hreads }⟩

/-- The next document is signed by the key of the one before. -/
theorem Held.rotates (hlawful : crypto.Lawful tuf) (hrooted : Rooted crypto h files N) {n : Nat}
    (hpositive : 1 ≤ n) (hle : n + 1 ≤ N) {r next : Tuf.Root} (hr : Held crypto tuf src h n r)
    (hnext : Held crypto tuf src h (n + 1) next) : r.Rotates tuf src next where
  found := by rw [hr.version, hnext.found]
  accepted := hnext.accepted
  consecutive := by rw [hr.version, hnext.version]
  cross_signed := by
    have hsigner : h.pems n ∈ h.signers (n + 1) := by
      rw [History.signers, if_neg (by omega)]
      simp
    have hsafe : n + 1 ≤ 2 ^ 53 := hle.trans hrooted.safe
    have hkey : r.keys.lookup (keyOf crypto (h.pems n)).keyid =
        some (keyOf crypto (h.pems n)).publicHex := by
      rw [hr.keys]
      exact (hrooted.drawn n hpositive (by omega)).lookup List.mem_cons_self
    rw [hr.role]
    exact signedBy hlawful (hrooted.drawn (n + 1) (by omega) hle) hsafe hnext.reads hsigner hkey

/-- The client follows the documents to the last one. -/
theorem exists_chain (hlawful : crypto.Lawful tuf) (hrooted : Rooted crypto h files N)
    (hserves : Serves tuf src files) {first : Tuf.Root} (hfirst : Held crypto tuf src h 1 first)
    {n : Nat} (hpositive : 1 ≤ n) (hle : n ≤ N) :
    ∃ r, Held crypto tuf src h n r ∧ Relation.ReflTransGen (Tuf.Root.Rotates tuf src) first r := by
  induction n, hpositive using Nat.le_induction with
  | base => exact ⟨first, hfirst, .refl⟩
  | succ n hpositive ih =>
      obtain ⟨r, hr, hchain⟩ := ih (by omega)
      obtain ⟨next, hnext⟩ := exists_held hlawful hrooted hserves (Nat.le_add_left 1 n) hle
      exact ⟨next, hnext, hchain.tail (hr.rotates hlawful hrooted hpositive hle hnext)⟩

/-- The roles below the root are the same in every document. -/
theorem Held.sameRole (hrooted : Rooted crypto h files N) {m n : Nat} (hm : 1 ≤ m ∧ m ≤ N)
    (hn : 1 ≤ n ∧ n ≤ N) {r r' : Tuf.Root} (hr : Held crypto tuf src h m r)
    (hr' : Held crypto tuf src h n r') :
    ∀ role ∈ ["timestamp", "snapshot", "targets"],
      Tuf.RootState.SameRole tuf (r.state tuf) (r'.state tuf) role := by
  have hdrawn := hrooted.drawn m hm.1 hm.2
  have hdrawn' := hrooted.drawn n hn.1 hn.2
  have hsame : ∀ role (k : Key), k ∈ [h.team.targets, h.team.snapshot, h.team.timestamp] →
      (h.document crypto m).signed.role role = some ⟨[k.keyid], 1⟩ →
      (h.document crypto n).signed.role role = some ⟨[k.keyid], 1⟩ →
      Tuf.RootState.SameRole tuf (r.state tuf) (r'.state tuf) role := by
    intro role k hk hrole hrole'
    refine ⟨_, hr.reads.roleDef hdrawn.plain hrole rfl, hr'.reads.roleDef hdrawn'.plain hrole' rfl,
      fun keyid hkeyid => ?_⟩
    have hleft : r.keys.lookup k.keyid = some k.publicHex := by
      rw [hr.keys]
      exact hdrawn.lookup (List.mem_cons_of_mem _ hk)
    have hright : r'.keys.lookup k.keyid = some k.publicHex := by
      rw [hr'.keys]
      exact hdrawn'.lookup (List.mem_cons_of_mem _ hk)
    rw [List.mem_singleton.mp hkeyid]
    exact hleft.trans hright.symm
  intro role hrole
  simp only [List.mem_cons, List.not_mem_nil, or_false] at hrole
  rcases hrole with rfl | rfl | rfl
  · exact hsame _ h.team.timestamp (by simp) rfl rfl
  · exact hsame _ h.team.snapshot (by simp) rfl rfl
  · exact hsame _ h.team.targets (by simp) rfl rfl

/-- A client that starts from the first root follows the documents on disk to the last one, and a
source that it accepts with the first root alone it accepts with all of them, once the last one is
not expired. -/
def ChainAccepted (tuf : Tuf.External) (files : Files) (version : Nat) : Prop :=
  ∀ src first now, Serves tuf src files → src (Tuf.rootName 1) = some first →
    ∃ anchor final, Tuf.anchorRoot tuf first now = .ok (anchor, 1) ∧
      Tuf.rootLoop tuf src now anchor 1 = .ok (final, version) ∧
      ∀ src' v, (∀ name, (∀ n, name ≠ Tuf.rootName n) → src' name = src name) →
        src' (Tuf.rootName 2) = none → Tuf.verify tuf src' first now = .ok v →
        Tuf.Unexpired final.rootSigned now → Tuf.verify tuf src first now =
          .ok { v with rootVersion := version, rootSha256 := final.rootSha256 }

theorem chainAccepted (hlawful : crypto.Lawful tuf) (hrooted : Rooted crypto h files N) :
    ChainAccepted tuf files N := by
  intro src first now hserves hfirst
  obtain ⟨r, hr⟩ := exists_held hlawful hrooted hserves le_rfl hrooted.positive
  obtain ⟨final, hfinal, hchain⟩ :=
    exists_chain hlawful hrooted hserves hr hrooted.positive le_rfl
  obtain rfl : first = r.bytes := Option.some.inj (hfirst.symm.trans hr.found)
  have hanchor : Tuf.anchorRoot tuf r.bytes now = .ok (r.state tuf, 1) :=
    (Tuf.anchorRoot_eq_ok tuf).mpr ⟨r, rfl, hr.accepted, rfl, hr.version.symm⟩
  have hloop : Tuf.rootLoop tuf src now (r.state tuf) 1 = .ok (final.state tuf, N) := by
    have habsent : src (Tuf.rootName (final.version + 1)) = none := by
      rw [hfinal.version]
      exact hserves.absent _ (hrooted.absent _ (.inr (Nat.lt_succ_self N)))
    have hbound : final.version + 1 < 2 ^ 64 := by
      have := hrooted.safe
      rw [hfinal.version]
      omega
    have hloop : Tuf.rootLoop tuf src now (r.state tuf) r.version =
        .ok (final.state tuf, final.version) :=
      (Tuf.rootLoop_eq_ok_iff_chain tuf).mpr ⟨final, hchain, habsent, hbound, rfl, rfl⟩
    rw [hr.version, hfinal.version] at hloop
    exact hloop
  refine ⟨r.state tuf, final.state tuf, hanchor, hloop, ?_⟩
  intro src' v hfiles hnone hv hunexpired
  have hsame := hr.sameRole hrooted ⟨le_rfl, hrooted.positive⟩ ⟨hrooted.positive, le_rfl⟩ hfinal
  exact Tuf.verify_of_rootLoop hanchor hloop hsame hfiles hnone hunexpired hv

end

end Useful.Cli.Source
