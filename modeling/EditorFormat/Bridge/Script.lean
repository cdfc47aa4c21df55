/-!
# The script of the bridge

The script that a Node.js process runs for one request: it reads the request, calls the formatter
and writes the reply. A missing end of the range becomes infinity there.
-/

namespace EditorFormat.Bridge

/-- The script, which begins and ends with a line break. -/
def script : String :=
  "
const chunks = [];
process.stdin.on(\"data\", (chunk) => chunks.push(chunk));
process.stdin.on(\"end\", async () => \x7b
  const reply = (value) => process.stdout.write(JSON.stringify(value));
  try \x7b
    const prettier = await import(process.env.PRETTIFY_PRETTIER || \"prettier\");
    const \x7b code, options, isSelection \x7d = JSON.parse(Buffer.concat(chunks).toString(\"utf8\"));
    if (options.rangeEnd === undefined || options.rangeEnd === null) options.rangeEnd = Infinity;
    const ok = isSelection
      ? await prettier.format(code, options)
      : await prettier.formatWithCursor(code, options);
    reply(\x7b ok \x7d);
  \x7d catch (error) \x7b
    reply(\x7b error: \x7b message: String(error && error.message ? error.message : error) \x7d \x7d);
  \x7d
\x7d);
"

end EditorFormat.Bridge
