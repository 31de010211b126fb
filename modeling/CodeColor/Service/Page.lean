/-! The demonstration page. -/

namespace CodeColor.Service

def indexLines : List String :=
  ["<!DOCTYPE html>",
    "<html lang=\"en\">",
    "<head>",
    "  <meta charset=\"utf-8\">",
    "  <title>Syntax Highlighter</title>",
    "  <style>",
    "    body \x7b font-family: system-ui, sans-serif; background: #111827; color: #ffffff; margin: 2rem; \x7d",
    "    textarea, pre \x7b width: 100%; box-sizing: border-box; font-family: ui-monospace, monospace; font-size: 14px; \x7d",
    "    textarea \x7b height: 12rem; background: #1F2937; color: #ffffff; border: 1px solid #374151; padding: .75rem; \x7d",
    "    pre \x7b background: #0B1120; padding: 1rem; border-radius: 6px; white-space: pre-wrap; min-height: 4rem; \x7d",
    "    .error \x7b color: #ea384c; \x7d",
    "  </style>",
    "</head>",
    "<body>",
    "  <h1>Syntax Highlighter</h1>",
    "  <p>",
    "    <select id=\"language\">",
    "      <option value=\"\">Auto-detect</option>",
    "    </select>",
    "    <button id=\"run\">Highlight</button>",
    "    <span id=\"meta\"></span>",
    "  </p>",
    "  <textarea id=\"code\" spellcheck=\"false\">const greet = (name) => console.log(\"Hello, \" + name);</textarea>",
    "  <pre id=\"output\"></pre>",
    "",
    "  <script>",
    "    const select = document.getElementById(\"language\");",
    "    const output = document.getElementById(\"output\");",
    "    const meta = document.getElementById(\"meta\");",
    "",
    "    fetch(\"/api/languages\")",
    "      .then((r) => r.json())",
    "      .then((data) => \x7b",
    "        for (const lang of data.languages) \x7b",
    "          const opt = document.createElement(\"option\");",
    "          opt.value = lang.id;",
    "          opt.textContent = lang.label;",
    "          select.appendChild(opt);",
    "        \x7d",
    "      \x7d);",
    "",
    "    document.getElementById(\"run\").addEventListener(\"click\", async () => \x7b",
    "      const body = \x7b code: document.getElementById(\"code\").value, language: select.value \x7d;",
    "      const resp = await fetch(\"/api/highlight\", \x7b",
    "        method: \"POST\",",
    "        headers: \x7b \"Content-Type\": \"application/json\" \x7d,",
    "        body: JSON.stringify(body),",
    "      \x7d);",
    "      const data = await resp.json();",
    "      if (!resp.ok) \x7b",
    "        output.innerHTML = \"\";",
    "        meta.innerHTML = `<span class=\"error\">$\x7bdata.error\x7d</span>`;",
    "        return;",
    "      \x7d",
    "      output.innerHTML = data.html;",
    "      meta.textContent = `$\x7bdata.language\x7d ($\x7bdata.confidence\x7d) · $\x7bdata.stats.total\x7d tokens`;",
    "    \x7d);",
    "  </script>",
    "</body>",
    "</html>"]

def indexPage : String :=
  String.join (indexLines.map (· ++ "\n"))

end CodeColor.Service
