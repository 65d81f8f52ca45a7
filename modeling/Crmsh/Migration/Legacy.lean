import Crmsh.Migration.Multicast

/-!
# What the migration leaves of the corosync 2 settings

`migrate_corosync_conf_impl` rewrites the settings corosync 3 reads differently.  A legacy
transport (`udpu`, `udp`, or none without a node list) ends on knet, with interface records
that have lost `ringnumber` and the udp-only keys and carry `linknumber` instead, and
without `quorum.expected_votes`; a node list with a second ring loses `rrp_mode`, an
`active` one leaving `link_mode: active`; and a `crypto_hash` of `sha1` becomes `sha256`.
**`migration_settles_legacy`** follows the four steps to show all of this.

The hash is rewritten only when it is `sha1`: a tree without `crypto_hash` keeps none
(`migration_keeps_unset_crypto_hash`).  `migrate_crypto` has a branch that writes `sha256`
for an unset hash, under `except KeyError`, but `dom['totem'].get('crypto_hash', None)`
never raises it, so the branch is reached only without a `totem` section, where its own
write raises again.  And the migration rewrites nothing else:
**`migration_keeps_other_settings`** shows that every top-level section but `totem`,
`nodelist` and `quorum`, and every key of `totem` but the six the steps rewrite, is left
as it was.
-/

namespace Crmsh

/-- The transform keeps a legacy transport legacy. -/
theorem LegacyTransport.transform {dom dA t tA : Dict} (hleg : LegacyTransport dom t)
    (hA : transformDomWithListSchema dom = .ok dA)
    (htr : Dict.get? tA "transport" = Dict.get? t "transport") : LegacyTransport dA tA := by
  unfold LegacyTransport
  rw [htr]
  exact hleg.imp_right (Or.imp_right fun ⟨hn, hk⟩ => ⟨hn, transform_nodelist_absent hk hA⟩)

/-- The interfaces of the input, wrapped in a list by the transform and migrated by the
transport step, are what the later steps leave. -/
theorem InterfacesMigrated.of_transform {t tA tB t1 : Dict}
    (hi : Dict.get? tA "interface" = (Dict.get? t "interface").map (fun v => .list v.elems))
    (hm : InterfacesMigrated tA tB) (hk : Dict.get? t1 "interface" = Dict.get? tB "interface") :
    InterfacesMigrated t t1 where
  absent hn := by rw [hk, hm.absent (by rw [hi, hn]; rfl)]
  records v hv := by
    obtain ⟨l', hl', hr⟩ := hm.records _ (by rw [hi, hv]; rfl)
    exact ⟨l', hk.trans hl', hr⟩

/-- **The migration settles the legacy settings.**  When `migrate_corosync_conf_impl`
returns, `crypto_hash` is `sha256` where it was `sha1` and as it was otherwise (absent
included).  From a legacy transport, `totem` is on knet, its interface records are
migrated (no `ringnumber` or udp-only key, `linknumber` for the `ringnumber` they had),
and `quorum.expected_votes` is absent.  When the node list has an entry with
`ring1_addr`, `rrp_mode` is absent, and `link_mode` is `active` where `rrp_mode` was. -/
theorem migration_settles_legacy {cib : List CibNode} {peers : String → Except PyExc Dict}
    {dom t d1 : Dict} (ht : Dict.get? dom "totem" = some (.dict t))
    (h : migrateCorosyncConfImpl cib peers dom = .ok d1) :
    ∃ t1, Dict.get? d1 "totem" = some (.dict t1) ∧
      Dict.get? t1 "crypto_hash" = (if Dict.get? t "crypto_hash" = some (.str "sha1")
        then some (.str "sha256") else Dict.get? t "crypto_hash") ∧
      (LegacyTransport dom t →
        Dict.get? t1 "transport" = some (.str "knet") ∧ InterfacesMigrated t t1 ∧ QuorumSettled d1) ∧
      ∀ n l, Dict.get? d1 "nodelist" = some (.dict n) → Dict.get? n "node" = some (.list l) →
        l.any (·.contains "ring1_addr") →
          Dict.get? t1 "rrp_mode" = none ∧
          (Dict.get? t "rrp_mode" = some (.str "active") →
            Dict.get? t1 "link_mode" = some (.str "active")) := by
  obtain ⟨dA, dB, dC, hA, hB, hC, hD⟩ := migrateCorosyncConfImpl_steps h
  obtain ⟨hsA, -⟩ := transform_ok hA
  obtain ⟨tA, htA, hiA, hkA⟩ := transform_totem ht hA
  obtain ⟨tB, htB, hsB, -, hB'⟩ := migrateTransport_ok hsA hB
  obtain ⟨hkB, hlegB⟩ := hB' tA htA
  obtain ⟨tC, htC, -, hcC, hfC, hdC⟩ := migrateCrypto_ok htB hC
  obtain ⟨t1, ht1, hf1, -, -, hrrp1, hlink1, hd1⟩ := migrateRrp_ok (hsB.migrateCrypto htB hC) htC hD
  -- the keys no step after the transport touches
  have late {k : String} (h₁ : k ≠ "crypto_hash") (h₂ : k ≠ "rrp_mode") (h₃ : k ≠ "link_mode") :
      Dict.get? t1 k = Dict.get? tB k := by
    rw [hf1 k h₂ h₃, hfC k h₁]
  -- the keys no step touches before `migrate_crypto`
  have early {k : String} (h₁ : k ≠ "transport") (h₂ : k ≠ "knet_compression_model")
      (h₃ : k ≠ "interface") : Dict.get? tB k = Dict.get? t k := by
    rw [hkB k h₁ h₂ h₃, hkA k h₃]
  refine ⟨t1, ht1, ?_, fun hleg => ?_, fun n l hn hl hany => ?_⟩
  · rw [hf1 _ (by simp) (by simp), hcC, early (by simp) (by simp) (by simp)]
  · obtain ⟨hknet, hmig, hq⟩ := hlegB (hleg.transform hA (hkA _ (by simp)))
    refine ⟨(late (by simp) (by simp) (by simp)).trans hknet,
      hmig.of_transform hiA (late (by simp) (by simp) (by simp)), fun q hq' => hq q ?_⟩
    rwa [hd1 _ (by simp) (by simp), hdC _ (by simp)] at hq'
  · obtain ⟨hrrp, -, -⟩ := hrrp1 n l hn hl hany
    refine ⟨hrrp, fun ha => hlink1 ?_ hrrp⟩
    rwa [hfC _ (by simp), early (by simp) (by simp) (by simp)]

/-- A udpu `totem` with a lone interface and a `sha1` hash. -/
def udpuShaTotem : Dict :=
  [("transport", .str "udpu"), ("crypto_hash", .str "sha1"),
   ("interface", .dict [("ringnumber", .str "0"), ("ttl", .str "1")])]

/-- The tree the migration makes of it. -/
def udpuShaMigrated : Dict :=
  [("totem", .dict [("transport", .str "knet"), ("crypto_hash", .str "sha256"),
    ("interface", .list [.dict [("linknumber", .str "0")]]), ("knet_compression_model", .str "none")])]

/-- The udpu tree above settles as the theorem says. -/
theorem udpuTree_settles_legacy :
    migrateCorosyncConfImpl [] (fun _ => .error .assertionError) [("totem", .dict udpuShaTotem)] =
      .ok udpuShaMigrated ∧
    ∃ t1, Dict.get? udpuShaMigrated "totem" = some (.dict t1) ∧
      Dict.get? t1 "crypto_hash" = (if Dict.get? udpuShaTotem "crypto_hash" = some (.str "sha1")
        then some (.str "sha256") else Dict.get? udpuShaTotem "crypto_hash") ∧
      (LegacyTransport [("totem", .dict udpuShaTotem)] udpuShaTotem →
        Dict.get? t1 "transport" = some (.str "knet") ∧ InterfacesMigrated udpuShaTotem t1 ∧
          QuorumSettled udpuShaMigrated) ∧
      ∀ n l, Dict.get? udpuShaMigrated "nodelist" = some (.dict n) →
        Dict.get? n "node" = some (.list l) → l.any (·.contains "ring1_addr") →
          Dict.get? t1 "rrp_mode" = none ∧
          (Dict.get? udpuShaTotem "rrp_mode" = some (.str "active") →
            Dict.get? t1 "link_mode" = some (.str "active")) :=
  (fun h => ⟨h, migration_settles_legacy (by rfl) h⟩) (by decide)

/-- A udpu tree without `crypto_hash` migrates to a knet tree without one: the hash stays
implicit, and the `except KeyError` branch of `migrate_crypto` that would write `sha256`
is not reached. -/
theorem migration_keeps_unset_crypto_hash :
    migrateCorosyncConfImpl [] (fun _ => .error .assertionError)
      [("totem", .dict [("transport", .str "udpu")])] =
      .ok [("totem", .dict [("transport", .str "knet"), ("knet_compression_model", .str "none")])] := by
  decide

/-! ## What the migration keeps -/

/-- The transport step changes no top-level key but `totem`, `nodelist` and `quorum`. -/
theorem migrateTransport_other {cib : List CibNode} {peers : String → Except PyExc Dict}
    {dom dom' : Dict} (hs : ListSchema dom) (h : migrateTransport cib peers dom = .ok dom')
    (k : String) (h₁ : k ≠ "totem") (h₂ : k ≠ "nodelist") (h₃ : k ≠ "quorum") :
    Dict.get? dom' k = Dict.get? dom k := by
  unfold migrateTransport at h
  split at h
  next t ht =>
    have multicast (h : migrateMulticast cib peers t dom = .ok dom') :
        Dict.get? dom' k = Dict.get? dom k := by
      obtain ⟨-, -, -, -, -, -, -, -, -, -, hf⟩ := migrateMulticast_ok (hs.totem t ht) h
      exact hf k h₁ h₂ h₃
    split at h
    · cases h; rfl
    · obtain ⟨-, -, -, -, -, -, -, hf⟩ := migrateUdpu_ok (hs.totem t ht) h
      exact hf k h₁ h₃
    · exact multicast h
    · simp only [Except.bind_eq_ok] at h
      obtain ⟨⟨⟩, -, h⟩ := h
      split at h
      · cases h; rfl
      · simp only [Except.bind_eq_ok, Except.pure_eq_ok] at h
        obtain ⟨⟨⟩, -, h⟩ := h
        exact multicast h
  next => cases h
  next => cases h

/-- The keys of `totem` the migration rewrites. -/
def migratedTotemKeys : List String :=
  ["transport", "knet_compression_model", "interface", "crypto_hash", "rrp_mode", "link_mode"]

/-- **The migration keeps every setting it does not migrate**: every top-level section but
`totem`, `nodelist` and `quorum`, and every key of `totem` but the six its steps
rewrite, are as they were. -/
theorem migration_keeps_other_settings {cib : List CibNode} {peers : String → Except PyExc Dict}
    {dom t d1 : Dict} (ht : Dict.get? dom "totem" = some (.dict t))
    (h : migrateCorosyncConfImpl cib peers dom = .ok d1) :
    (∀ k, k ≠ "totem" → k ≠ "nodelist" → k ≠ "quorum" → Dict.get? d1 k = Dict.get? dom k) ∧
      ∃ t1, Dict.get? d1 "totem" = some (.dict t1) ∧
        ∀ k, k ∉ migratedTotemKeys → Dict.get? t1 k = Dict.get? t k := by
  obtain ⟨dA, dB, dC, hA, hB, hC, hD⟩ := migrateCorosyncConfImpl_steps h
  obtain ⟨hsA, hfA⟩ := transform_ok hA
  obtain ⟨tA, htA, -, hkA⟩ := transform_totem ht hA
  obtain ⟨tB, htB, hsB, -, hB'⟩ := migrateTransport_ok hsA hB
  obtain ⟨tC, htC, -, -, hfC, hdC⟩ := migrateCrypto_ok htB hC
  obtain ⟨t1, ht1, hf1, -, -, -, -, hd1⟩ := migrateRrp_ok (hsB.migrateCrypto htB hC) htC hD
  refine ⟨fun k h₁ h₂ h₃ => ?_, t1, ht1, fun k hk => ?_⟩
  · rw [hd1 k h₁ h₂, hdC k h₁, migrateTransport_other hsA hB k h₁ h₂ h₃, hfA k h₁ h₂]
  · simp only [migratedTotemKeys, List.mem_cons, List.not_mem_nil, or_false, not_or] at hk
    obtain ⟨h₁, h₂, h₃, h₄, h₅, h₆⟩ := hk
    rw [hf1 k h₅ h₆, hfC k h₄, (hB' tA htA).1 k h₁ h₂ h₃, hkA k h₃]

/-- A udpu tree with a cluster name and a `logging` section: both come through the
migration. -/
theorem udpuLogging_keeps_settings :
    ∃ d1, migrateCorosyncConfImpl [] (fun _ => .error .assertionError)
        [("totem", .dict [("transport", .str "udpu"), ("cluster_name", .str "hacluster"),
           ("interface", .dict [("ringnumber", .str "0"), ("ttl", .str "1")])]),
         ("logging", .dict [("to_syslog", .str "yes")])] = .ok d1 ∧
      (∀ k, k ≠ "totem" → k ≠ "nodelist" → k ≠ "quorum" →
        Dict.get? d1 k = Dict.get? [("totem", .dict [("transport", .str "udpu"),
            ("cluster_name", .str "hacluster"),
            ("interface", .dict [("ringnumber", .str "0"), ("ttl", .str "1")])]),
          ("logging", .dict [("to_syslog", .str "yes")])] k) ∧
      ∃ t1, Dict.get? d1 "totem" = some (.dict t1) ∧
        ∀ k, k ∉ migratedTotemKeys → Dict.get? t1 k = Dict.get? [("transport", .str "udpu"),
          ("cluster_name", .str "hacluster"),
          ("interface", .dict [("ringnumber", .str "0"), ("ttl", .str "1")])] k :=
  have h : migrateCorosyncConfImpl [] (fun _ => .error .assertionError)
      [("totem", .dict [("transport", .str "udpu"), ("cluster_name", .str "hacluster"),
         ("interface", .dict [("ringnumber", .str "0"), ("ttl", .str "1")])]),
       ("logging", .dict [("to_syslog", .str "yes")])] =
      .ok [("totem", .dict [("transport", .str "knet"), ("cluster_name", .str "hacluster"),
          ("interface", .list [.dict [("linknumber", .str "0")]]),
          ("knet_compression_model", .str "none")]),
        ("logging", .dict [("to_syslog", .str "yes")])] := by
    decide
  ⟨_, h, migration_keeps_other_settings rfl h⟩

end Crmsh
