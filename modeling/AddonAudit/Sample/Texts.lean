/-
  AddonAudit.Sample.Texts — texts of sample addons, made to any size.

  The texts have something for every check to find, at regular places.
-/
import AddonAudit.Text.Basic

namespace AddonAudit.Sample

/-- A text that is repeated with the numbers below a count, of which there are none if it is
    negative. -/
def numbered (count : Int) (text : Nat → String) : List String := (List.range count.toNat).map text

/-- Half a count, but at least one: how many different names so many items have. -/
def halfOf (count : Int) : Nat := max 1 (count.toNat / 2)

/-! ## §1. Models -/

/-- The definition of a field; six kinds follow each other. -/
def fieldText (i : Nat) : String :=
  match i % 6 with
  | 0 => "fields.Char(string='Label 0', help=_('h'), tracking=True)"
  | 1 => "fields.Integer(compute='_compute_x', compute_sudo=True)"
  | 2 => "fields.Selection(related='partner_id.state', selection=[('a','A')])"
  | 3 => "fields.Many2one('res.partner', 'Partner " ++ toString i ++ "', help='h')"
  | 4 => "fields.Float()"
  | _ => "fields.Many2many(comodel_name='res.partner', string=CONST)"

/-- The decorator of a method, if it has one; three kinds follow each other. -/
def decoratorLines (i : Nat) : List String :=
  match i % 3 with
  | 0 => ["    @api.depends('name')"]
  | 1 => ["    @staticmethod"]
  | _ => []

/-- The body of a method; four kinds follow each other. -/
def bodyLines (i : Nat) : List String :=
  match i % 4 with
  | 0 => ["        \"\"\"do stuff " ++ toString i ++ ".\"\"\"", "        return True"]
  | 1 => ["        \"\"\"x\"\"\"", "        return 1"]
  | 2 => ["        return 1"]
  | _ => ["        \"\"\"Do Stuff " ++ toString i ++ ".\"\"\"", "        return 1"]

def methodText (i : Nat) : String :=
  "\n".intercalate
    (decoratorLines i ++ ["    def do_stuff_" ++ toString i ++ "(self):"] ++ bodyLines i ++ [""])

/-- A file with models: one with numbers of fields and methods, and a plain one. -/
def modelText (index fields methods : Int) : String :=
  let n := toString index
  "\n".intercalate (
    ["from odoo import fields, models, api, _",
      "",
      "class BenchModel" ++ n ++ "(models.Model):",
      "    _name = 'bench.model." ++ n ++ "'",
      "    _inherit = ['mail.thread', 'mail.activity.mixin']",
      "    _description = 'Bench model'",
      ""] ++
    numbered fields (fun i => "    fld_" ++ toString i ++ " = " ++ fieldText i) ++
    ["    _priv = fields.Char()",
      "    name = fields.Char()",
      "    rel_only = fields.Char(related='partner_id.name')",
      ""] ++
    numbered methods methodText ++
    ["    async def aio_method(self):",
      "        return 1",
      "",
      "class PlainModel" ++ n ++ "(models.Model):",
      "    _name = 'plain.model." ++ n ++ "'",
      "    _inherit = 'base'",
      "    tracked = fields.Char(tracking=True)",
      "    notafield = something()",
      "",
      "def top_level():",
      "    pass",
      "x = 1"])

/-! ## §2. Records -/

/-- Four records and a template. -/
def recordText (index : String) (count : Int) (i : Nat) : String :=
  let id := "rec_" ++ index ++ "_" ++ toString (i % halfOf count)
  "\n".intercalate [
    "",
    "    <record id=\"" ++ id ++ "\" model=\"ir.ui.view\">",
    "      <field name=\"name\">v" ++ toString i ++ "</field>",
    "      <field name=\"name\">dup</field>",
    "      <field name=\"inherit_id\" ref=\"base.view_" ++ toString (i % 3) ++ "\"/>",
    "      <field name=\"priority\">16</field>",
    "      <field name=\"arch\" type=\"xml\">",
    "        <tree string=\"T\" colors=\"red\">",
    "          <field name=\"a\" context=\"\x7b'k': active_id, 'x': '500'\x7d\"/>",
    "        </tree>",
    "      </field>",
    "    </record>",
    "    <record id=\"bench_module." ++ id ++ "_own\" model=\"res.users\">",
    "      <field name=\"name\">u</field>",
    "    </record>",
    "    <record id=\"" ++ id ++ "_flt\" model=\"ir.filters\">",
    "      <field name=\"name\">f</field>",
    "    </record>",
    "    <record id=\"" ++ id ++
      "_plain\" model=\"res.partner\" context=\"\x7b'no_reset_password': True\x7d\">",
    "      <field name=\"name\">p</field>",
    "      <field name=\"name\">p</field>",
    "      <field name=\"dom\" domain=\"[('id','=','999')]\"/>",
    "    </record>",
    "    <template id=\"tmpl_" ++ toString i ++ "\">",
    "      <span t-raw=\"val\" t-esc-options=\"x\" class=\"alert-warning\"/>",
    "      <div class=\"alert-info\" role=\"alert\"/>",
    "      <a class=\"alert-link\"/>",
    "      <link href=\"/bad/path?x\"/>",
    "      <script src=\"/ok/path.js\"/>",
    "    </template>"]

/-- A file with records; half of them repeat the names of the others. -/
def recordsText (index count : Int) : String :=
  "<?xml version=\"1.0\"?>\n<openerp><data>" ++
    String.join (numbered count (recordText (toString index) count)) ++ "</data></openerp>\n"

/-! ## §3. Tables and catalogs -/

/-- A table; half of its rows repeat the names of the others, and the last one has no name. -/
def tableText (count : Int) : String :=
  "id,name,value\n" ++
    String.join (numbered count fun i =>
      "rec_" ++ toString (i % halfOf count) ++ ",Name " ++ toString i ++ "," ++ toString i ++
        "\n") ++
    ",empty,row\n"

/-- An entry of a catalog; placeholders of every other one are not those of its message. -/
def messageText (count : Int) (i : Nat) : String :=
  let n := toString i
  "#. module: bench_module\n#, python-format\nmsgid \"Hello %s number " ++
    toString (i % halfOf count) ++ " \x7bname\x7d\"\nmsgstr \"" ++
    (if i % 2 == 0 then "Hola %s numero " ++ n ++ " \x7bname\x7d" else "Hola %d numero " ++ n ++
      " \x7bwrong\x7d") ++
    "\"\n\n"

/-- A catalog; half of its messages repeat the others, and the last one belongs to no module. -/
def catalogText (count : Int) : String :=
  "msgid \"\"\nmsgstr \"\"\n\"Content-Type: text/plain; charset=UTF-8\\n\"\n\n" ++
    String.join (numbered count (messageText count)) ++
    "#, python-format\nmsgid \"No module here\"\nmsgstr \"Sin modulo\"\n\n#~ msgid \"obsolete\"\n" ++
    "#~ msgstr \"obs\"\n\n"

end AddonAudit.Sample
