import Sitewright.Proofs.Json.RoundTrip
import Sitewright.Proofs.Schema.Readable
import Sitewright.Proofs.Service.Sound

/-!
# Exporting what is stored

With a registry whose props are readable and whose fragments can be filled in, everything that the
service stores can be read back. It is exported as well if it is whole: the literal in the module of
the exported project is the JSON text of the stored content. Half a pair of surrogates is stored
like any other text, though, and then the archive cannot be written. This is the only complaint
about a stored schema in any run.
-/

namespace Sitewright

open Generation

theorem Schema.read_source {schema : Schema} (h : schema.Readable) (ht : schema.Tidy) :
    Json.read schema.source = .ok (.object schema.fields) :=
  Json.read_print rfl (Schema.readable_toJson h ht)

def Archive.Embeds (archive : Archive) (content : Fields) : Prop :=
  ∃ literal, Dict.get? archive.entries "lib/websiteSchema.ts" =
      some (moduleHead ++ literal ++ moduleTail) ∧
    Json.read literal = .ok (.object content)

theorem Archive.embeds_of_generate {registry : Registry} {schema : Schema} {files : FileSet}
    {filename : String} (hg : registry.generate schema = .ok files) (hr : schema.Readable)
    (ht : schema.Tidy) : (Archive.mk filename files).Embeds schema.fields :=
  ⟨schema.source, Registry.schemaModule_of_generate hg, Schema.read_source hr ht⟩

namespace Service

variable {service : Service} {state : State} {request : Request} {id : String} {edit : Edit}

/-! ## Readable schemas are maintained -/

theorem readable_of_read {α : Type} {key : String} {check : Json → Checked α} {text : String}
    {body : α} (h : Body.read (Checked.required key check) text = .ok body) :
    ∃ value : Json, value.Readable ∧ check value = .ok body := by
  obtain ⟨chars, fields, hc, hf⟩ := object_of_read h
  obtain ⟨value, hg, hv⟩ := Checked.required_eq_ok_iff.mp hf
  exact ⟨value, (Json.readable_of_ofChars hc).of_get? hg, hv⟩

theorem readable_of_editOf? (h : editOf? request = some (id, edit)) : edit.Readable := by
  unfold editOf? at h
  cases hr : route request.method request.path with
  | error reply => simp [hr] at h
  | ok target =>
      rw [hr] at h
      cases target with
      | addPage project =>
          obtain ⟨title, -, he⟩ := read_of_toOption_map h
          cases he
          trivial
      | addSection project slug =>
          obtain ⟨type, -, he⟩ := read_of_toOption_map h
          cases he
          trivial
      | removeSection project slug sectionId =>
          cases h
          trivial
      | updateProps project slug sectionId =>
          obtain ⟨partialProps, hb, he⟩ := read_of_toOption_map h
          cases he
          obtain ⟨value, hv, hd⟩ := readable_of_read hb
          rw [Checked.dictionary_eq_ok_iff.mp hd] at hv
          exact hv
      | _ => cases h

theorem maintains_readable (hreg : service.registry.Readable) :
    service.Maintains fun schema => schema.Tidy ∧ schema.Readable where
  tidy h := h.1
  dumped h := ⟨h.1.dumped, h.2.dumped⟩
  default h := ⟨SitePlan.tidy_of_defaultSchema h, SitePlan.readable_of_defaultSchema hreg h⟩
  body h := by
    obtain ⟨value, hv, hs⟩ := readable_of_read (read_of_replacementOf? h)
    exact ⟨(maintains_tidy service).body h, Schema.readable_of_ofJson hv hs⟩
  edit he ha h :=
    ⟨Edit.tidy_of_apply ha h.1, Edit.readable_of_apply hreg (readable_of_editOf? he) ha h.2⟩

/-! ## Exports -/

/-- Whatever the service has stored reads as it is, and is exported on request exactly if it is
whole. -/
structure Exports (service : Service) (state : State) : Prop where
  reads : ∀ {id : String} {project : Project} {record : SchemaRecord},
    state.store.get? id = some project → project.schema = some record →
      ∃ content schema, record.content = some content ∧
        Schema.ofJson (.object content) = .ok schema ∧ schema.toJson = .object content
  exports : ∀ (now : Timestamp) {request : Request} {id : String} {record : SchemaRecord},
    route request.method request.path = .ok (.generateCode id) →
      (state.store.get? id).bind (·.schema) = some record →
        ∃ content, record.content = some content ∧
          if (Json.object content).isWhole then
            ∃ archive, (service.serve state now request).2.reply = .archive archive ∧
              archive.Embeds content
          else (service.serve state now request).2.reply = .generationFailed

theorem exports_of_stored (hreg : service.registry.Renders)
    (hm : service.Maintains fun schema => schema.Tidy ∧ schema.Readable)
    (hs : state.store.Stored fun schema => schema.Tidy ∧ schema.Readable)
    (hq : state.journal.hears .info = false) : service.Exports state where
  reads hp hr := by
    obtain ⟨schema, ⟨ht, -⟩, hfinite, hc⟩ := hs _ _ _ hp hr
    have hread : Schema.ofJson schema.toJson = .ok schema := by
      rw [Schema.ofJson_toJson ht, hfinite]
    exact ⟨schema.fields, schema, hc, hread, rfl⟩
  exports now request id record hroute hr := by
    obtain ⟨schema, files, ⟨ht, hread⟩, hc, hg, hreply⟩ :=
      serve_generateCode_of_stored hm hreg hs hq now hroute hr
    refine ⟨schema.fields, hc, ?_⟩
    rw [hreply, ← Schema.toJson]
    cases schema.toJson.isWhole with
    | true => exact ⟨_, rfl, Archive.embeds_of_generate hg hread ht⟩
    | false => rfl

/-- While the service exports what it has stored, it fails to for what is not whole. -/
theorem Exports.reply_of_asksForHalved (h : service.Exports state) (now : Timestamp)
    (ha : AsksForHalved state request) :
    (service.serve state now request).2.reply = .generationFailed := by
  obtain ⟨id, record, content, hroute, hr, hc, hw⟩ := ha
  obtain ⟨found, hfound, hreply⟩ := h.exports now hroute hr
  cases hc.symm.trans hfound
  simpa [hw] using hreply

/-- What the service with the default registry stores is readable, and nothing informative is ever
heard. -/
theorem readable_run (ids : IdSource) {journal : Journal} (hq : journal.hears .info = false)
    (requests : List (Timestamp × Request)) :
    let state := (Service.run ⟨.default⟩ (State.empty ids journal) requests).1
    state.store.Stored (fun schema => schema.Tidy ∧ schema.Readable) ∧
      state.journal.hears .info = false := by
  let service : Service := ⟨.default⟩
  let P (schema : Schema) : Prop := schema.Tidy ∧ schema.Readable
  let I (state : State) : Prop := state.store.Stored P ∧ state.journal.hears .info = false
  have hm : service.Maintains P := maintains_readable Registry.readable_default
  have hreg : service.registry.Renders := Registry.renders_default
  have step : ∀ state now request, I state → I (service.serve state now request).1 := by
    rintro state now request ⟨hs, hq⟩
    exact ⟨stored_serve hm hs now request, (serves_reply hm hreg hs hq now request).quiet⟩
  have hstart : I (State.empty ids journal) := ⟨stored_empty P ids journal, hq⟩
  exact invariant_run step hstart requests

theorem exports_run (ids : IdSource) {journal : Journal} (hq : journal.hears .info = false)
    (requests : List (Timestamp × Request)) :
    Service.Exports ⟨.default⟩ (Service.run ⟨.default⟩ (State.empty ids journal) requests).1 :=
  let ⟨hs, hquiet⟩ := readable_run ids hq requests
  exports_of_stored Registry.renders_default (maintains_readable Registry.readable_default) hs hquiet

end Service

end Sitewright
