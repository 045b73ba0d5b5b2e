import ActionStream.Configuration.Choice
import ActionStream.Interchange.Decode
/-!
# The JSON form of configurations

A configuration is an object of three members, each of which may be left out; no other member is
allowed.
-/

namespace ActionStream

open Json (Decoder Value)
open Json.RecordForm (defaulted done)

def TextLayout.toJson (layout : TextLayout) : Value :=
  .text layout.name

def TextLayout.decoder : Decoder TextLayout :=
  Decoder.alternative TextLayout.ofName?

def Context.toJson (context : Context) : Value :=
  .objectOf [("version", .natural context.version.toNat), ("text_layout", context.layout.toJson),
    ("lenient", .boolean context.lenient)]

def Context.decoder : Decoder Context :=
  (defaulted "version" Decoder.word8 defaultVersion
    (defaulted "text_layout" TextLayout.decoder .nulTerminated
      (defaulted "lenient" Decoder.boolean false done))).decoderOf true
    fun (version, layout, lenient, _) => .ok ⟨version, layout, lenient⟩

end ActionStream
