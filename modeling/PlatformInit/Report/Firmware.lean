import PlatformInit.Fsp.Header
import PlatformInit.Fsp.Upd
import PlatformInit.Report.Outcome
import PlatformInit.Smram.Descriptor
import PlatformInit.Volume.File

/-!
Reports of what firmware images and hand-off lists hold.
-/
set_option autoImplicit false
namespace PlatformInit

instance : ToValue FspHeader where
  toValue h := .record [("signature", toValue h.signature), ("header_length", toValue h.headerLength),
    ("spec_version", toValue h.specVersion), ("header_revision", toValue h.headerRevision),
    ("image_revision", toValue h.imageRevision), ("image_id", toValue h.imageId),
    ("image_size", toValue h.imageSize), ("image_base", toValue h.imageBase),
    ("image_attribute", toValue h.imageAttribute),
    ("component_attribute", toValue h.componentAttribute),
    ("cfg_region_offset", toValue h.configOffset), ("cfg_region_size", toValue h.configSize),
    ("temp_ram_init", toValue h.tempRamInit), ("notify_phase", toValue h.notifyPhase),
    ("memory_init", toValue h.memoryInit), ("temp_ram_exit", toValue h.tempRamExit),
    ("silicon_init", toValue h.siliconInit), ("cfg_region_base", toValue h.configBase)]

instance : ToValue UpdHeader where
  toValue h := .record [("signature", toValue h.signature), ("revision", toValue h.revision)]

instance : ToValue UpdArch where
  toValue a := .record [("revision", toValue a.revision), ("nvs_buffer_ptr", toValue a.nvsBuffer),
    ("stack_base", toValue a.stackBase), ("stack_size", toValue a.stackSize),
    ("tolum_size", toValue a.tolumSize), ("boot_mode", toValue a.bootMode)]

instance : OfValue UpdArch where
  ofValue? v := do
    return { revision := ← v.fieldD "revision" 0, nvsBuffer := ← v.fieldD "nvs_buffer_ptr" 0,
             stackBase := ← v.fieldD "stack_base" 0, stackSize := ← v.fieldD "stack_size" 0,
             tolumSize := ← v.fieldD "tolum_size" 0, bootMode := ← v.fieldD "boot_mode" 0 }

instance : ToValue ResourceDescriptor where
  toValue r := .record [("type", .text "resource"), ("rtype", toValue r.kind),
    ("attr", toValue r.attributes), ("start", toValue r.start), ("length", toValue r.length),
    ("owner", toValue r.owner)]

instance : ToValue Hob where
  toValue
    | .resource r => toValue r
    | .volume base length =>
      .record [("type", .text "fv"), ("base", toValue base), ("length", toValue length)]
    | .nestedVolume base length volumeName fileName =>
      .record [("type", .text "fv2"), ("base", toValue base), ("length", toValue length),
        ("fv_name", toValue volumeName), ("file_name", toValue fileName)]
    | .cpu memoryBits ioBits =>
      .record [("type", .text "cpu"), ("mem", toValue memoryBits), ("io", toValue ioBits)]
    | .guidExtension name data =>
      .record [("type", .text "guid"), ("name", toValue name), ("data", toValue data)]
    | .other kind data =>
      .record [("type", .text "other"), ("hob_type", toValue kind), ("data", toValue data)]

instance : OfValue Hob where
  ofValue? v := do
    match (← v.field "type" : String) with
    | "resource" =>
      return .resource ⟨← v.fieldD "owner" Guid.zero, ← v.field "rtype", ← v.field "attr",
        ← v.field "start", ← v.field "length"⟩
    | "fv" => return .volume (← v.field "base") (← v.field "length")
    | "fv2" =>
      return .nestedVolume (← v.field "base") (← v.field "length") (← v.field "fv_name")
        (← v.field "file_name")
    | "cpu" => return .cpu (← v.field "mem") (← v.field "io")
    | "guid" => return .guidExtension (← v.field "name") (← v.field "data")
    | "other" => return .other (← v.field "hob_type") (← v.field "data")
    | _ => none

instance : ToValue SmramRange where
  toValue r := .list [toValue r.physicalStart, toValue r.cpuStart, toValue r.size, toValue r.state]

instance : OfValue SmramRange where
  ofValue?
    | .list [physicalStart, cpuStart, size, state] => do
      return ⟨← ofValue? physicalStart, ← ofValue? cpuStart, ← ofValue? size, ← ofValue? state⟩
    | _ => none

instance : ToValue VolumeHeader where
  toValue h := .record [("fs_guid", toValue h.fileSystem), ("fv_length", toValue h.length),
    ("signature", toValue h.signature), ("attributes", toValue h.attributes),
    ("header_length", toValue h.headerLength), ("checksum", toValue h.checksum),
    ("ext_header_offset", toValue h.extHeaderOffset), ("revision", toValue h.revision)]

instance : ToValue Section where
  toValue s := .record [("type", toValue s.kind), ("data", toValue s.body)]

instance : ToValue FirmwareFile where
  toValue f := .record [("name", toValue f.name), ("type", toValue f.kind),
    ("attributes", toValue f.attributes), ("data_len", .count f.body.length),
    ("sections", toValue f.sections)]

end PlatformInit
